import LendingXlm.Lib.Dag
import LendingXlm.PriceAggregator.Admin
import LendingXlm.PriceAggregator.FailClosed

/-!
# The oracle registry stays well formed

The registered oracles form a graph: an oracle points to the keys it composes over. The validation
of an oracle walks that graph, so what it accepts is a bounded, acyclic composition, summarized by
the derived properties.

* `propertiesOfKey_spec`: the properties of a key summarize its whole composition, and it is bounded;
* `validateOracle_congr`: the validation of an oracle reads only the keys it reaches;
* `revalidateDependents_ok`: revalidation visits every oracle that reaches the changed key;
* `setOracle_wellFormed`, `setSanityBand_wellFormed`, `setTolerance_wellFormed`: each call keeps
  every registered oracle valid, and so does every run (`registry_wellFormed`).
-/

namespace Lending.PriceAggregator

open Transaction Validation

/-! ## The graph of a registry -/

namespace Registry

variable (reg : Registry)

/-- The keys that the oracle of `key` composes over. -/
def succ (key : PriceKey) : List PriceKey :=
  match reg.getOracle key with
  | none => []
  | some oracle => oracle.dependencies

def Registered (key : PriceKey) : Prop := ∃ oracle, reg.getOracle key = some oracle

theorem succ_of {key : PriceKey} {oracle : AssetOracle} (h : reg.getOracle key = some oracle) :
    reg.succ key = oracle.dependencies := by
  simp [succ, h]

theorem registered_of_edge {key d : PriceKey} (h : Dag.Edge reg.succ key d) :
    reg.Registered key := by
  unfold Dag.Edge succ at h
  cases hreg : reg.getOracle key with
  | none => simp [hreg] at h
  | some oracle => exact ⟨oracle, hreg⟩

theorem getOracle_storeOracle (key k : PriceKey) (oracle : AssetOracle) :
    (reg.storeOracle key oracle).getOracle k =
      if k = key then some oracle else reg.getOracle k := by
  simp only [storeOracle, getOracle, Function.update_apply]

end Registry

variable {reg : Registry}

/-- `depends_on` is the search of the graph. -/
theorem dependsOn_eq_search (target : PriceKey) (fuel : Nat) :
    ∀ visiting root, dependsOn reg target fuel visiting root =
      Dag.search reg.succ target fuel visiting root := by
  induction fuel with
  | zero => exact fun _ _ => rfl
  | succ fuel ih =>
    intro visiting root
    simp only [dependsOn, Dag.search, Registry.succ]
    split
    · rfl
    · cases reg.getOracle root with
      | none => rfl
      | some oracle => simp only [ih]

/-! ## Properties summarize a composition -/

/-- `s'` occurs in the composition of the source `s`. -/
inductive InComposition (reg : Registry) : PriceSource → PriceSource → Prop
  | here {s : PriceSource} : InComposition reg s s
  | nested {s s₁ s' : PriceSource} {d : PriceKey} {oracle : AssetOracle} : d ∈ s.dependencies →
      reg.getOracle d = some oracle → s₁ ∈ oracle.sources → InComposition reg s₁ s' →
      InComposition reg s s'

/-- The properties say what holds of the sources in `S` together. -/
structure Summary (S : PriceSource → Prop) (props : SourceProperties) : Prop where
  unsmoothed : props.hasUnsmoothedMarketLeg = true ↔
    ∃ s, S s ∧ (localProperties s).hasUnsmoothedMarketLeg = true
  trust : ∀ c, c ∈ props.trust ↔ ∃ s, S s ∧ c ∈ (localProperties s).trust
  stale : ∀ s, S s → (localProperties s).loosestMaxStaleSeconds ≤ props.loosestMaxStaleSeconds

theorem mem_joinTrust {c : Address} (other : List Address) :
    ∀ trust, c ∈ SourceProperties.joinTrust trust other ↔ c ∈ trust ∨ c ∈ other := by
  unfold SourceProperties.joinTrust
  induction other with
  | nil => simp
  | cons a other ih =>
    intro trust
    rw [List.foldl_cons, ih]
    split
    · grind
    · grind

namespace Summary

variable {S S' : PriceSource → Prop} {a b : SourceProperties}

theorem empty : Summary (fun _ => False) .empty :=
  ⟨by simp [SourceProperties.empty], by simp [SourceProperties.empty], fun _ h => h.elim⟩

theorem single (s : PriceSource) : Summary (· = s) (localProperties s) :=
  ⟨by simp, by simp, by rintro _ rfl; exact le_refl _⟩

theorem join (ha : Summary S a) (hb : Summary S' b) :
    Summary (fun s => S s ∨ S' s) (a.join b) where
  unsmoothed := by
    simp only [SourceProperties.join, Bool.or_eq_true, ha.unsmoothed, hb.unsmoothed]
    grind
  trust c := by
    simp only [SourceProperties.join, mem_joinTrust, ha.trust, hb.trust]
    grind
  stale s hs := by
    rcases hs with hs | hs
    · exact le_trans (ha.stale s hs) (le_max_left _ _)
    · exact le_trans (hb.stale s hs) (le_max_right _ _)

theorem congr (h : Summary S a) (heq : ∀ s, S s ↔ S' s) : Summary S' a := by
  have : S = S' := funext fun s => propext (heq s)
  exact this ▸ h

/-- The depth of the properties is not part of what they summarize. -/
theorem withDepth (h : Summary S a) (depth : Nat) : Summary S { a with depth := depth } :=
  ⟨h.unsmoothed, h.trust, h.stale⟩

end Summary

/-- The sources in the composition of a key. -/
def KeyComposition (reg : Registry) (key : PriceKey) (s' : PriceSource) : Prop :=
  ∃ oracle, reg.getOracle key = some oracle ∧ ∃ s ∈ oracle.sources, InComposition reg s s'

theorem inComposition_iff {s s' : PriceSource} :
    InComposition reg s s' ↔ s = s' ∨ ∃ d ∈ s.dependencies, KeyComposition reg d s' := by
  constructor
  · rintro (_ | ⟨hd, hreg, hs, h⟩)
    · exact .inl rfl
    · exact .inr ⟨_, hd, _, hreg, _, hs, h⟩
  · rintro (rfl | ⟨d, hd, oracle, hreg, s₁, hs, h⟩)
    · exact .here
    · exact .nested hd hreg hs h

/-! ### The walk of `properties_of_key` -/

variable (reg) in
/-- The key resolves within `room` levels, off the stack. -/
abbrev Resolvable (room : Nat) (stack : List PriceKey) (key : PriceKey) : Prop :=
  Dag.Bounded reg.Registered reg.succ room stack key

/-- The walk of one source, given the walk of its dependencies. -/
theorem propertiesOfSourceWith_spec {s : Session} {room depth : Nat}
    {ofKey : PriceKey → Engine SourceProperties} (source : PriceSource)
    (hkey : ∀ d, Spec (· = s) (fun _ => True) (ofKey d) fun props =>
      Resolvable reg room s.resolvingKeys d ∧ Summary (KeyComposition reg d) props) :
    Spec (· = s) (fun _ => True) (propertiesOfSourceWith ofKey depth source) fun props =>
      (∀ d ∈ source.dependencies, Resolvable reg room s.resolvingKeys d) ∧
        Summary (InComposition reg source) props := by
  have hloop := Spec.foldlM (I := (· = s)) (T := fun _ : Panic => True)
    (f := fun properties key => do return SourceProperties.join properties (← ofKey key))
    (l := source.dependencies)
    (P := fun props done => (∀ d ∈ done, Resolvable reg room s.resolvingKeys d) ∧
      Summary (fun s' => source = s' ∨ ∃ d ∈ done, KeyComposition reg d s') props)
    (fun props d done _ hprops => by
      refine Spec.bind (hkey d) fun dprops hd => Spec.pure ⟨?_, ?_⟩
      · intro d' hd'
        rcases List.mem_append.mp hd' with h | h
        · exact hprops.1 d' h
        · rw [List.mem_singleton.mp h]
          exact hd.1
      · refine (hprops.2.join hd.2).congr fun s' => ?_
        simp only [List.mem_append, List.mem_singleton]
        grind)
    (localProperties source)
    ⟨nofun, (Summary.single source).congr fun s' => by simp [eq_comm]⟩
  refine Spec.bind hloop fun props hprops => Spec.pure ⟨hprops.1, ?_⟩
  exact (hprops.2.withDepth _).congr fun s' => inComposition_iff.symm

/-- The same for all sources of an oracle, as `properties_of_key` joins them. -/
theorem propertiesOfSources_spec {s : Session} {room depth : Nat}
    {ofKey : PriceKey → Engine SourceProperties} (sources : List PriceSource)
    (hkey : ∀ d, Spec (· = s) (fun _ => True) (ofKey d) fun props =>
      Resolvable reg room s.resolvingKeys d ∧ Summary (KeyComposition reg d) props) :
    Spec (· = s) (fun _ => True)
      (sources.foldlM (fun joined source => do
        return SourceProperties.join joined (← propertiesOfSourceWith ofKey depth source))
        SourceProperties.empty)
      fun props => (∀ source ∈ sources, ∀ d ∈ source.dependencies,
          Resolvable reg room s.resolvingKeys d) ∧
        Summary (fun s' => ∃ source ∈ sources, InComposition reg source s') props := by
  refine Spec.foldlM
    (P := fun props done => (∀ source ∈ done, ∀ d ∈ source.dependencies,
        Resolvable reg room s.resolvingKeys d) ∧
      Summary (fun s' => ∃ source ∈ done, InComposition reg source s') props) ?_ _ ?_
  · intro props source done _ hprops
    refine Spec.bind (propertiesOfSourceWith_spec source hkey) fun sprops hs =>
      Spec.pure ⟨?_, ?_⟩
    · intro source' hs'
      rcases List.mem_append.mp hs' with h | h
      · exact hprops.1 source' h
      · rw [List.mem_singleton.mp h]
        exact hs.1
    · refine (hprops.2.join hs.2).congr fun s' => ?_
      simp only [List.mem_append, List.mem_singleton]
      grind
  · exact ⟨nofun, Summary.empty.congr fun s' => by simp⟩

/-- **Properties.** The properties of a key summarize its composition, which is bounded. -/
theorem propertiesOfKey_spec (room : Nat) : ∀ (s : Session) (key : PriceKey),
    Spec (· = s) (fun _ => True) (propertiesOfKey reg room key) fun props =>
      Resolvable reg room s.resolvingKeys key ∧ Summary (KeyComposition reg key) props := by
  induction room with
  | zero => exact fun s key => Spec.throw trivial
  | succ room ih =>
    intro s key
    -- `key` is on the stack between the push and the pop
    let inner : Session := { s with resolvingKeys := key :: s.resolvingKeys }
    have hpush : Leads (· = s) (· = inner) (fun _ => True) (Session.pushKey key)
        fun _ => key ∉ s.resolvingKeys := by
      rintro _ rfl
      rw [Session.pushKey_run]
      split_ifs with h
      · trivial
      · exact ⟨rfl, h⟩
    refine Leads.bind hpush fun _ hkey => ?_
    refine Leads.bind (Spec.lift (Q := fun oracle => reg.getOracle key = some oracle)
      (fun _ h => Fallible.orThrow_ok_iff.mp h) fun _ _ => trivial) fun oracle horacle => ?_
    refine Leads.bind (propertiesOfSources_spec oracle.sources (ih inner)) fun props hprops => ?_
    refine Leads.bind (J := (· = s)) (Leads.modify (Q := fun _ => True) ?_ trivial) fun _ _ =>
      Spec.pure ⟨⟨hkey, ⟨oracle, horacle⟩, fun d hd => ?_⟩, ?_⟩
    · rintro _ rfl
      rfl
    · rw [reg.succ_of horacle] at hd
      obtain ⟨source, hs, hd⟩ := List.mem_flatMap.mp hd
      exact hprops.1 source hs d hd
    · refine hprops.2.congr fun s' => ?_
      simp only [KeyComposition, horacle, Option.some.injEq, exists_eq_left']

/-! ## What a valid oracle is -/

/-- What the derived properties say about the sources of an oracle. -/
structure Derives (reg : Registry) (key : PriceKey) (oracle : AssetOracle)
    (derived : ConfigProperties) : Prop where
  bounded : ∀ d ∈ oracle.dependencies, Resolvable reg maxResolutionDepth [key] d
  sources :
    (∃ s, oracle.sources = [s] ∧ Summary (InComposition reg s) derived.first ∧
      derived.second = none) ∨
    ∃ s s' second, oracle.sources = [s, s'] ∧ Summary (InComposition reg s) derived.first ∧
      derived.second = some second ∧ Summary (InComposition reg s') second

theorem propertiesOfSource_spec (s : Session) (source : PriceSource) :
    Spec (· = s) (fun _ => True) (propertiesOfSource reg source) fun props =>
      (∀ d ∈ source.dependencies, Resolvable reg maxResolutionDepth s.resolvingKeys d) ∧
        Summary (InComposition reg source) props :=
  propertiesOfSourceWith_spec source fun d => propertiesOfKey_spec maxResolutionDepth s d

theorem derivedProperties_ok {key : PriceKey} {oracle : AssetOracle} {derived : ConfigProperties}
    (h : (derivedProperties reg key oracle).answer .new = .ok derived) :
    Derives reg key oracle derived := by
  let inner : Session := { Session.new with resolvingKeys := [key] }
  have hconfig : Spec (· = inner) (fun _ => True) (propertiesOfConfig reg oracle.sources)
      fun derived => Derives reg key oracle derived := by
    unfold propertiesOfConfig
    split
    · rename_i source hsources
      refine Spec.bind (propertiesOfSource_spec inner source) fun first hfirst => Spec.pure ?_
      refine ⟨fun d hd => ?_, .inl ⟨source, hsources, hfirst.2, rfl⟩⟩
      obtain ⟨s, hs, hd⟩ := List.mem_flatMap.mp hd
      rw [hsources, List.mem_singleton] at hs
      exact hfirst.1 d (hs ▸ hd)
    · rename_i source source' hsources
      refine Spec.bind (propertiesOfSource_spec inner source) fun first hfirst => ?_
      refine Spec.bind (propertiesOfSource_spec inner source') fun second hsecond =>
        Spec.pure ⟨fun d hd => ?_,
          .inr ⟨source, source', second, hsources, hfirst.2, rfl, hsecond.2⟩⟩
      obtain ⟨s, hs, hd⟩ := List.mem_flatMap.mp hd
      rw [hsources] at hs
      rcases List.mem_cons.mp hs with rfl | hs
      · exact hfirst.1 d hd
      · rw [List.mem_singleton] at hs
        exact hsecond.1 d (hs ▸ hd)
    · exact Spec.throw trivial
  obtain ⟨s', hrun⟩ := Engine.answer_ok h
  have hall : Leads (· = Session.new) (fun _ => True) (fun _ => True)
      (derivedProperties reg key oracle) fun derived => Derives reg key oracle derived := by
    have hpush : Leads (· = Session.new) (· = inner) (fun _ => True) (Session.pushKey key)
        fun _ => True := by
      rintro _ rfl
      rw [Session.pushKey_run]
      exact ⟨rfl, trivial⟩
    refine Leads.bind hpush fun _ _ => Leads.bind hconfig fun derived hd => ?_
    refine Leads.bind (J := fun _ => True) (Leads.modify (Q := fun _ => True) (fun _ _ => trivial)
      trivial) fun _ _ => Spec.pure hd
  have hs := hall _ rfl
  rw [hrun] at hs
  exact hs.2

theorem validateOracle_ok {key : PriceKey} {oracle : AssetOracle} {exactly : Bool} {u : Unit}
    (h : validateOracle reg key oracle exactly = .ok u) :
    ∃ derived, Derives reg key oracle derived ∧
      validateDerived key oracle derived exactly = .ok u := by
  obtain ⟨derived, hd, h⟩ := Fallible.bind_ok h
  exact ⟨derived, derivedProperties_ok hd, h⟩

/-! ## Locality -/

theorem foldlM_congr {β γ : Type} {f g : β → γ → Engine β} {l : List γ}
    (h : ∀ b, ∀ x ∈ l, f b x = g b x) : ∀ b, l.foldlM f b = l.foldlM g b := by
  induction l with
  | nil => exact fun _ => rfl
  | cons x l ih =>
    intro b
    rw [List.foldlM_cons, List.foldlM_cons, h b x List.mem_cons_self]
    have ih := ih fun b y hy => h b y (List.mem_cons_of_mem _ hy)
    simp only [ih]

theorem propertiesOfSourceWith_congr {ofKey ofKey' : PriceKey → Engine SourceProperties}
    {depth : Nat} {source : PriceSource} (h : ∀ d ∈ source.dependencies, ofKey d = ofKey' d) :
    propertiesOfSourceWith ofKey depth source = propertiesOfSourceWith ofKey' depth source := by
  unfold propertiesOfSourceWith
  rw [foldlM_congr fun b d hd => by rw [h d hd]]

/-- The two registries have the same sources for the key. -/
def SameSources (reg reg' : Registry) (key : PriceKey) : Prop :=
  (reg'.getOracle key).map AssetOracle.sources = (reg.getOracle key).map AssetOracle.sources

theorem propertiesOfKey_congr {reg' : Registry} (room : Nat) : ∀ key,
    (∀ k, Relation.ReflTransGen (Dag.Edge reg.succ) key k → SameSources reg reg' k) →
    propertiesOfKey reg' room key = propertiesOfKey reg room key := by
  induction room with
  | zero => exact fun _ _ => rfl
  | succ room ih =>
    intro key h
    have hkey := h key .refl
    unfold SameSources at hkey
    simp only [propertiesOfKey]
    refine bind_congr fun _ => ?_
    cases horacle : reg.getOracle key with
    | none =>
      rw [horacle, Option.map_none, Option.map_eq_none_iff] at hkey
      rw [hkey]
      rfl
    | some oracle =>
      rw [horacle, Option.map_some, Option.map_eq_some_iff] at hkey
      obtain ⟨oracle', horacle', hsources⟩ := hkey
      have hloop : oracle.sources.foldlM (fun joined source => do
            return SourceProperties.join joined (← propertiesOfSourceWith (propertiesOfKey reg' room)
              (maxResolutionDepth - room) source)) SourceProperties.empty =
          oracle.sources.foldlM (fun joined source => do
            return SourceProperties.join joined (← propertiesOfSourceWith (propertiesOfKey reg room)
              (maxResolutionDepth - room) source)) SourceProperties.empty := by
        refine foldlM_congr (fun joined source hs => ?_) _
        rw [propertiesOfSourceWith_congr fun d hd => ih d fun k hk => h k (.head ?_ hk)]
        rw [Dag.Edge, reg.succ_of horacle]
        exact List.mem_flatMap.mpr ⟨source, hs, hd⟩
      have hcont : ∀ o o' : AssetOracle, o.sources = oracle.sources → o'.sources = oracle.sources →
          (do
            let joined ← o'.sources.foldlM (fun joined source => do
              return SourceProperties.join joined (← propertiesOfSourceWith
                (propertiesOfKey reg' room) (maxResolutionDepth - room) source))
              SourceProperties.empty
            Session.popKey
            return joined : Engine SourceProperties) = (do
            let joined ← o.sources.foldlM (fun joined source => do
              return SourceProperties.join joined (← propertiesOfSourceWith
                (propertiesOfKey reg room) (maxResolutionDepth - room) source))
              SourceProperties.empty
            Session.popKey
            return joined) := by
        intro o o' ho ho'
        rw [ho, ho', hloop]
      rw [horacle']
      exact hcont oracle oracle' rfl hsources

/-- **Locality.** The validation of an oracle reads only the sources of the keys it reaches. -/
theorem validateOracle_congr {reg' : Registry} {key : PriceKey} {oracle : AssetOracle}
    {exactly : Bool}
    (h : ∀ d ∈ oracle.dependencies, ∀ k, Relation.ReflTransGen (Dag.Edge reg.succ) d k →
      SameSources reg reg' k) :
    validateOracle reg' key oracle exactly = validateOracle reg key oracle exactly := by
  have hsource : ∀ source ∈ oracle.sources,
      propertiesOfSource reg' source = propertiesOfSource reg source := fun source hs =>
    propertiesOfSourceWith_congr fun d hd =>
      propertiesOfKey_congr _ d (h d (List.mem_flatMap.mpr ⟨source, hs, hd⟩))
  have hconfig : propertiesOfConfig reg' oracle.sources = propertiesOfConfig reg oracle.sources := by
    unfold propertiesOfConfig
    split
    · rename_i source hsources
      rw [hsource source (by simp [hsources])]
    · rename_i source source' hsources
      rw [hsource source (by simp [hsources]), hsource source' (by simp [hsources])]
    · rfl
  simp only [validateOracle, derivedProperties, hconfig]

/-! ## Well-formed registries -/

/-- Every registered oracle passes `validate_oracle`, in the mode of dependents, and is listed. -/
structure Registry.WellFormed (reg : Registry) : Prop where
  valid : ∀ key oracle, reg.getOracle key = some oracle →
    validateOracle reg key oracle false = .ok ()
  indexed : ∀ key, reg.Registered key → key ∈ reg.keys

theorem Registry.wellFormed_empty : Registry.empty.WellFormed :=
  ⟨nofun, fun _ h => by obtain ⟨_, h⟩ := h; cases h⟩

/-- The checks of a validation, one by one. -/
theorem validateDerived_ok_iff {key : PriceKey} {oracle : AssetOracle}
    {derived : ConfigProperties} {exactly : Bool} :
    validateDerived key oracle derived exactly = .ok () ↔
      validateSanityBounds oracle.minSanityPriceWad oracle.maxSanityPriceWad = .ok () ∧
      (if oracle.hasLpSource then
          validateLpSanityBand oracle.minSanityPriceWad oracle.maxSanityPriceWad
        else validateSingleSourceSanityBand (exemptFromBandCap derived)
          oracle.minSanityPriceWad oracle.maxSanityPriceWad) = .ok () ∧
      Validation.assetDecimals key oracle.assetDecimals = .ok () ∧
      oracle.sources.forM sourceShape = .ok () ∧
      ¬ (oracle.sources.any PriceSource.isLp = true ∧ oracle.sources.length ≠ 1) ∧
      compositionDepth derived.first = .ok () ∧
      (∀ second ∈ derived.second, compositionDepth second = .ok ()) ∧
      stalenessEnvelope oracle.maxPriceStaleSeconds derived.combined = .ok () ∧
      (oracle.hasLpSource = false → smoothing derived.first derived.second = .ok () ∧
        validateOracleTolerance oracle.tolerance = .ok ()) ∧
      ∀ second ∈ derived.second,
        independence derived.first second oracle.independence exactly = .ok () := by
  have hunit : ∀ x : Except Panic Unit, (∃ u, x = .ok u) ↔ x = .ok () := fun _ =>
    ⟨fun ⟨_, h⟩ => h, fun h => ⟨_, h⟩⟩
  unfold validateDerived
  cases derived.second <;> cases oracle.hasLpSource <;> simp [assertOracle, hunit, and_assoc]

/-- The declared contracts may cover more than the shared ones. -/
theorem validateDerived_inexact {key : PriceKey} {oracle : AssetOracle}
    {derived : ConfigProperties} (h : validateDerived key oracle derived true = .ok ()) :
    validateDerived key oracle derived false = .ok () := by
  rw [validateDerived_ok_iff] at h ⊢
  obtain ⟨hsanity, hband, hdec, hshape, hcount, hdepth, hdepth', hstale, hsmooth, hind⟩ := h
  refine ⟨hsanity, hband, hdec, hshape, hcount, hdepth, hdepth', hstale, hsmooth, ?_⟩
  intro second hsecond
  have hs := hind second hsecond
  simp only [independence, assertOracle, Fallible.require_ok_iff] at hs ⊢
  unfold Independent at hs ⊢
  split at hs
  · exact hs
  · exact ⟨hs.1, hs.2.1, fun h => by cases h⟩

/-- Another valid tolerance keeps the oracle valid. -/
theorem validateDerived_tolerance {key : PriceKey} {oracle : AssetOracle}
    {derived : ConfigProperties} {exactly : Bool} {tolerance : OracleTolerance}
    (h : validateDerived key oracle derived exactly = .ok ())
    (htol : validateOracleTolerance tolerance = .ok ()) :
    validateDerived key { oracle with tolerance } derived exactly = .ok () := by
  rw [validateDerived_ok_iff] at h ⊢
  obtain ⟨hsanity, hband, hdec, hshape, hcount, hdepth, hdepth', hstale, hsmooth, hind⟩ := h
  exact ⟨hsanity, hband, hdec, hshape, hcount, hdepth, hdepth', hstale,
    fun hlp => ⟨(hsmooth hlp).1, htol⟩, hind⟩

theorem Registry.indexed_storeOracle {key : PriceKey} {oracle : AssetOracle}
    (h : ∀ k, reg.Registered k → k ∈ reg.keys) :
    ∀ k, (reg.storeOracle key oracle).Registered k → k ∈ (reg.storeOracle key oracle).keys := by
  rintro k ⟨o, ho⟩
  rw [Registry.getOracle_storeOracle] at ho
  simp only [Registry.storeOracle]
  by_cases hk : k = key
  · subst hk
    split_ifs with hmem
    · exact hmem
    · simp
  · rw [if_neg hk] at ho
    have hmem := h k ⟨o, ho⟩
    split_ifs
    · exact hmem
    · exact List.mem_append_left _ hmem

/-- **Revalidation.** Every listed oracle that reaches the changed key is validated again. -/
theorem revalidateDependents_ok {changed : PriceKey}
    (h : revalidateDependents reg changed = .ok ()) (hindexed : ∀ k, reg.Registered k → k ∈ reg.keys)
    {key : PriceKey} {oracle : AssetOracle} (horacle : reg.getOracle key = some oracle)
    (hne : key ≠ changed) (hreach : Relation.TransGen (Dag.Edge reg.succ) key changed) :
    validateOracle reg key oracle false = .ok () := by
  have hkey := Fallible.forM_ok h key (hindexed key ⟨oracle, horacle⟩)
  have hdep : dependsOn reg changed (reg.keys.length + 1) [] key = true := by
    rw [dependsOn_eq_search]
    exact Dag.search_complete (fun x y hxy => hindexed x (reg.registered_of_edge hxy)) hreach
  rw [if_neg (by simp [hne, hdep])] at hkey
  simpa only [horacle, orThrow, Fallible.ok_bind] using hkey

/-- Replacing an oracle that passes its own validation keeps the others valid, when those that
reach it were validated again. -/
theorem storeOracle_wellFormed {key : PriceKey} {oracle : AssetOracle} (hw : reg.WellFormed)
    (hvalid : validateOracle reg key oracle false = .ok ())
    (hdeps : revalidateDependents (reg.storeOracle key oracle) key = .ok ()) :
    (reg.storeOracle key oracle).WellFormed := by
  have hindexed : ∀ k, (reg.storeOracle key oracle).Registered k →
      k ∈ (reg.storeOracle key oracle).keys := Registry.indexed_storeOracle hw.indexed
  refine ⟨fun k o ho => ?_, hindexed⟩
  have hget := reg.getOracle_storeOracle key k oracle
  by_cases hk : k = key
  · subst hk
    rw [hget, if_pos rfl] at ho
    cases ho
    -- what the new oracle composes over does not lead back to it
    obtain ⟨derived, hd, -⟩ := validateOracle_ok hvalid
    have hsame : validateOracle (reg.storeOracle k oracle) k oracle false =
        validateOracle reg k oracle false := by
      refine validateOracle_congr fun d hmem j hj => ?_
      have hj : j ≠ k := by simpa using ((hd.bounded d hmem).reach hj).1
      rw [SameSources, reg.getOracle_storeOracle, if_neg hj]
    rw [hsame, hvalid]
  · by_cases hreach : Relation.TransGen (Dag.Edge (reg.storeOracle key oracle).succ) k key
    · exact revalidateDependents_ok hdeps hindexed ho hk hreach
    · -- nothing below `k` changed
      have hold : reg.getOracle k = some o := by rwa [hget, if_neg hk] at ho
      have hsame : validateOracle reg k o false =
          validateOracle (reg.storeOracle key oracle) k o false := by
        refine validateOracle_congr fun d hmem j hj => ?_
        have hj : j ≠ key := by
          rintro rfl
          refine hreach (.head' ?_ hj)
          rwa [Dag.Edge, Registry.succ_of _ ho]
        rw [SameSources, reg.getOracle_storeOracle, if_neg hj]
      rw [← hsame]
      exact hw.valid k o hold

/-- An oracle replaced by one of the same sources does not touch the others. -/
theorem storeOracle_sameSources {key : PriceKey} {stored oracle : AssetOracle}
    (hw : reg.WellFormed) (hstored : reg.getOracle key = some stored)
    (hsources : oracle.sources = stored.sources)
    (hvalid : validateOracle reg key oracle false = .ok ()) :
    (reg.storeOracle key oracle).WellFormed := by
  have hsame : ∀ k, SameSources reg (reg.storeOracle key oracle) k := by
    intro k
    unfold SameSources
    rw [reg.getOracle_storeOracle]
    split_ifs with hk
    · rw [hk, hstored, Option.map_some, Option.map_some, hsources]
    · rfl
  refine ⟨fun k o ho => ?_, Registry.indexed_storeOracle hw.indexed⟩
  rw [validateOracle_congr fun _ _ k _ => hsame k]
  rw [reg.getOracle_storeOracle] at ho
  split_ifs at ho with hk
  · cases ho
    rw [hk, hvalid]
  · exact hw.valid k o ho

theorem validateOracle_inexact {key : PriceKey} {oracle : AssetOracle}
    (h : validateOracle reg key oracle true = .ok ()) :
    validateOracle reg key oracle false = .ok () := by
  obtain ⟨derived, hd, h⟩ := Fallible.bind_ok h
  simp only [validateOracle, hd, Fallible.ok_bind]
  exact validateDerived_inexact h

theorem setOracle_ok {p : Providers} {key : PriceKey} {oracle : AssetOracle} {reg' : Registry}
    (h : setOracle reg p key oracle = .ok reg') :
    validateOracle reg key oracle true = .ok () ∧
      revalidateDependents (reg.storeOracle key oracle) key = .ok () ∧
      reg' = reg.storeOracle key oracle := by
  have htail : ∀ {x : Except Panic Unit}, (do
      validateAssetOracle reg key oracle
      attestSources p key oracle
      x
      revalidateDependents (reg.storeOracle key oracle) key
      return reg.storeOracle key oracle) = .ok reg' →
      validateOracle reg key oracle true = .ok () ∧
        revalidateDependents (reg.storeOracle key oracle) key = .ok () ∧
        reg' = reg.storeOracle key oracle := by
    intro x h
    simp only [Fallible.bind_ok_iff, Fallible.pure_ok_iff] at h
    obtain ⟨_, hvalid, _, -, _, -, _, hdeps, rfl⟩ := h
    exact ⟨hvalid, hdeps, rfl⟩
  have hbody := h
  simp only [setOracle] at hbody
  cases hlp : oracle.hasLpSource <;> simp only [hlp, if_true, Bool.false_eq_true, if_false] at hbody
  all_goals
    split at hbody
    · obtain ⟨_, -, hbody⟩ := Fallible.bind_ok hbody
      exact htail hbody
    · exact htail hbody

theorem setOracle_wellFormed {p : Providers} {key : PriceKey} {oracle : AssetOracle}
    {reg' : Registry} (hw : reg.WellFormed) (h : setOracle reg p key oracle = .ok reg') :
    reg'.WellFormed := by
  obtain ⟨hvalid, hdeps, rfl⟩ := setOracle_ok h
  exact storeOracle_wellFormed hw (validateOracle_inexact hvalid) hdeps

theorem setSanityBand_wellFormed {p : Providers} {key : PriceKey} {minWad maxWad : Int}
    {reg' : Registry} (hw : reg.WellFormed)
    (h : setSanityBand reg p key minWad maxWad = .ok reg') : reg'.WellFormed := by
  simp only [setSanityBand, Fallible.bind_ok_iff, Fallible.pure_ok_iff] at h
  obtain ⟨stored, hstored, _, -, _, hvalid, _, -, rfl⟩ := h
  exact storeOracle_sameSources hw (Fallible.orThrow_ok_iff.mp hstored) rfl hvalid

/-- The validation that `set_tolerance` skips would pass. -/
theorem setTolerance_wellFormed {p : Providers} {key : PriceKey} {tolerance : OracleTolerance}
    {reg' : Registry} (hw : reg.WellFormed)
    (h : setTolerance reg p key tolerance = .ok reg') : reg'.WellFormed := by
  simp only [setTolerance, Fallible.bind_ok_iff, Fallible.pure_ok_iff] at h
  obtain ⟨stored, hstored, _, -, _, htol, _, -, rfl⟩ := h
  have hstored := Fallible.orThrow_ok_iff.mp hstored
  refine storeOracle_sameSources hw hstored rfl ?_
  obtain ⟨derived, hd, hok⟩ := Fallible.bind_ok (hw.valid key stored hstored)
  have hd' : (derivedProperties reg key { stored with tolerance }).answer .new = .ok derived := hd
  simp only [validateOracle, hd', Fallible.ok_bind]
  exact validateDerived_tolerance hok htol

/-! ## Runs -/

/-- The calls that change the registry, each with what the providers answer during it. -/
inductive AdminCall where
  | setOracle (p : Providers) (key : PriceKey) (oracle : AssetOracle)
  | setSanityBand (p : Providers) (key : PriceKey) (minWad maxWad : Int)
  | setTolerance (p : Providers) (key : PriceKey) (tolerance : OracleTolerance)

variable (reg) in
def AdminCall.apply : AdminCall → Except Panic Registry
  | setOracle p key oracle => PriceAggregator.setOracle reg p key oracle
  | setSanityBand p key minWad maxWad => PriceAggregator.setSanityBand reg p key minWad maxWad
  | setTolerance p key tolerance => PriceAggregator.setTolerance reg p key tolerance

/-- A rejected call leaves the registry as it was. -/
def Registry.step (reg : Registry) (call : AdminCall) : Registry :=
  (call.apply reg).toOption.getD reg

/-- The registry after a list of calls on a new contract. -/
def Registry.run (calls : List AdminCall) : Registry := calls.foldl Registry.step .empty

theorem Registry.step_wellFormed (hw : reg.WellFormed) (call : AdminCall) :
    (reg.step call).WellFormed := by
  unfold Registry.step
  cases h : call.apply reg with
  | error e => exact hw
  | ok reg' =>
    cases call with
    | setOracle p key oracle => exact setOracle_wellFormed hw h
    | setSanityBand p key minWad maxWad => exact setSanityBand_wellFormed hw h
    | setTolerance p key tolerance => exact setTolerance_wellFormed hw h

theorem Registry.run_wellFormed (calls : List AdminCall) : (Registry.run calls).WellFormed :=
  List.foldlRecOn _ _ Registry.wellFormed_empty fun _ hw call _ => Registry.step_wellFormed hw call

/-! ## What a well-formed registry is made of -/

/-- The feed a source reads itself. -/
def PriceSource.ownFeed : PriceSource → Option FeedSource
  | feed f => some f
  | scaled s => some s.factor
  | aquariusLp _ | aquariusStableLp _ | curveStableLp _ => none

theorem localProperties_stale {source : PriceSource} {feed : FeedSource}
    (h : feed ∈ source.ownFeed) :
    (localProperties source).loosestMaxStaleSeconds = feed.maxStaleSeconds := by
  cases source <;> cases h <;> rfl

namespace Registry.WellFormed

variable {key : PriceKey} {oracle : AssetOracle}

theorem derives (hw : reg.WellFormed) (h : reg.getOracle key = some oracle) :
    ∃ derived, Derives reg key oracle derived ∧
      validateDerived key oracle derived false = .ok () :=
  validateOracle_ok (hw.valid key oracle h)

/-- A registered key resolves from the root, with a level to spare for each that may be nested. -/
theorem resolvable (hw : reg.WellFormed) (h : reg.getOracle key = some oracle) :
    Resolvable reg rootRoom [] key := by
  obtain ⟨derived, hd, -⟩ := hw.derives h
  refine ⟨List.not_mem_nil, ⟨oracle, h⟩, fun d hd' => ?_⟩
  rw [reg.succ_of h] at hd'
  exact hd.bounded d hd'

theorem sourceCount (hw : reg.WellFormed) (h : reg.getOracle key = some oracle) :
    oracle.sources.length = 1 ∨ oracle.sources.length = 2 := by
  obtain ⟨derived, hd, -⟩ := hw.derives h
  rcases hd.sources with ⟨s, hs, -⟩ | ⟨s, s', second, hs, -⟩
  · exact .inl (by rw [hs]; rfl)
  · exact .inr (by rw [hs]; rfl)

/-- The oracle's limit is no tighter than that of any feed in its composition. -/
theorem staleness (hw : reg.WellFormed) (h : reg.getOracle key = some oracle)
    {source : PriceSource} (hs : KeyComposition reg key source) {feed : FeedSource}
    (hfeed : feed ∈ source.ownFeed) : feed.maxStaleSeconds ≤ oracle.maxPriceStaleSeconds := by
  obtain ⟨derived, hd, hok⟩ := hw.derives h
  obtain ⟨-, -, -, -, -, -, -, hstale, -, -⟩ := validateDerived_ok_iff.mp hok
  simp only [stalenessEnvelope, assertOracle, Fallible.require_ok_iff] at hstale
  rw [← localProperties_stale hfeed]
  refine le_trans ?_ hstale.2
  obtain ⟨o, ho, s₁, hs₁, hin⟩ := hs
  rw [h] at ho
  cases ho
  unfold ConfigProperties.combined
  rcases hd.sources with ⟨s, hsrc, hfirst, hsecond⟩ | ⟨s, s', second, hsrc, hfirst, hsecond, hsum⟩
  · rw [hsrc, List.mem_singleton] at hs₁
    rw [hsecond]
    exact hfirst.stale source (hs₁ ▸ hin)
  · rw [hsecond]
    refine (hfirst.join hsum).stale source ?_
    rw [hsrc] at hs₁
    rcases List.mem_cons.mp hs₁ with rfl | hs₁
    · exact .inl hin
    · exact .inr (List.mem_singleton.mp hs₁ ▸ hin)

/-- Unless it prices a pool share, some source composes over smoothed legs only. -/
theorem smoothed (hw : reg.WellFormed) (h : reg.getOracle key = some oracle)
    (hlp : oracle.hasLpSource = false) :
    ∃ source ∈ oracle.sources, ∀ s, InComposition reg source s →
      (localProperties s).hasUnsmoothedMarketLeg = false := by
  obtain ⟨derived, hd, hok⟩ := hw.derives h
  obtain ⟨-, -, -, -, -, -, -, -, hsmooth, -⟩ := validateDerived_ok_iff.mp hok
  have hsm : Smoothed derived.first derived.second := by
    have := (hsmooth hlp).1
    simpa only [smoothing, Fallible.require_ok_iff] using this
  have hall : ∀ {s : PriceSource} {props : SourceProperties},
      Summary (InComposition reg s) props → ¬ props.hasUnsmoothedMarketLeg = true →
      ∀ s', InComposition reg s s' → (localProperties s').hasUnsmoothedMarketLeg = false := by
    intro s props hsum hfalse s' hs'
    by_contra hlocal
    exact hfalse (hsum.unsmoothed.mpr ⟨s', hs', by simpa using hlocal⟩)
  rcases hd.sources with ⟨s, hsrc, hfirst, hsecond⟩ | ⟨s, s', second, hsrc, hfirst, hsecond, hsum⟩
  · refine ⟨s, by simp [hsrc], hall hfirst fun hbad => hsm ⟨hbad, ?_⟩⟩
    rw [hsecond]
    exact nofun
  · by_cases hbad : derived.first.hasUnsmoothedMarketLeg = true
    · refine ⟨s', by simp [hsrc], hall hsum fun hbad' => hsm ⟨hbad, ?_⟩⟩
      rw [hsecond]
      rintro _ ⟨⟩
      exact hbad'
    · exact ⟨s, by simp [hsrc], hall hfirst hbad⟩

theorem mem_sharedContractsWith {a b : SourceProperties} {c : Address} :
    c ∈ a.sharedContractsWith b ↔ c ∈ a.trust ∧ c ∈ b.trust := by
  have hfold : ∀ (l shared : List Address),
      c ∈ l.foldl (fun shared contract =>
        if contract ∈ b.trust ∧ contract ∉ shared then shared ++ [contract] else shared) shared ↔
        c ∈ shared ∨ (c ∈ l ∧ c ∈ b.trust) := by
    intro l
    induction l with
    | nil => simp
    | cons x l ih =>
      intro shared
      rw [List.foldl_cons, ih]
      split_ifs with hx <;> grind
  simpa [SourceProperties.sharedContractsWith] using hfold a.trust []

/-- A contract that both sources of an oracle rely on was declared as shared. -/
theorem independent (hw : reg.WellFormed) (h : reg.getOracle key = some oracle)
    {s₁ s₂ : PriceSource} (hsources : oracle.sources = [s₁, s₂]) {c : Address}
    (h₁ : ∃ s, InComposition reg s₁ s ∧ c ∈ (localProperties s).trust)
    (h₂ : ∃ s, InComposition reg s₂ s ∧ c ∈ (localProperties s).trust) :
    ∃ declared, oracle.independence = .allowShared declared ∧ c ∈ declared := by
  obtain ⟨derived, hd, hok⟩ := hw.derives h
  obtain ⟨-, -, -, -, -, -, -, -, -, hind⟩ := validateDerived_ok_iff.mp hok
  rcases hd.sources with ⟨s, hsrc, -⟩ | ⟨s, s', second, hsrc, hfirst, hsecond, hsum⟩
  · rw [hsources] at hsrc
    cases hsrc
  · rw [hsources] at hsrc
    cases hsrc
    have hs := hind second hsecond
    simp only [independence, assertOracle, Fallible.require_ok_iff] at hs
    have hc : c ∈ derived.first.sharedContractsWith second :=
      mem_sharedContractsWith.mpr ⟨(hfirst.trust c).mpr h₁, (hsum.trust c).mpr h₂⟩
    unfold Independent at hs
    split at hs
    · rw [hs] at hc
      cases hc
    · rename_i declared hpolicy
      refine ⟨declared, hpolicy, ?_⟩
      have hall := List.all_eq_true.mp hs.2.1 c hc
      simpa using hall

end Registry.WellFormed

end Lending.PriceAggregator
