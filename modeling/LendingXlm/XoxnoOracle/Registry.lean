import LendingXlm.XoxnoOracle.Contract

/-!
# The registry of the XOXNO oracle stays consistent

- **The catalogue** (`Storage.Catalogued`): the two swap-remove indexes, and the two-way mapping
  between assets and feeds with respect to them.
- **Attribution** (`Storage.Attributed`): who a stored submission, and the submissions behind a
  stored aggregate, belong to. It takes a list of feeds still to be recomputed, for the loop of
  `remove_signer`.
- **Runs** (`oracle_storage_invariant`): both hold after any sequence of calls, and no call finds an
  index count too small.
-/

namespace Lending.XoxnoOracle

variable {s s' : Storage} {now : Nat} {feedId : FeedId}

/-! ## The invariant -/

/-- The signer is registered, the feed is known, and it is in the signer's feed list. -/
def Storage.Serves (s : Storage) (signer : Address) (feedId : FeedId) : Prop :=
  signer ∈ s.loadSigners ∧ s.feedIndexContains feedId = true ∧ feedId ∈ s.loadSignerFeeds signer

structure Storage.Catalogued (s : Storage) : Prop where
  feeds : s.feeds.WellFormed
  assets : s.assets.WellFormed
  mapping : ∀ asset feedId, s.feedMapping asset = some feedId ↔ s.feedOwner feedId = some asset
  known : ∀ asset feedId, s.feedMapping asset = some feedId → s.feeds.contains feedId = true
  mapped : ∀ asset, s.assets.contains asset = true ↔ ∃ feedId, s.feedMapping asset = some feedId

structure Storage.Staffed (s : Storage) : Prop where
  nodup : s.loadSigners.Nodup
  threshold_pos : 1 ≤ s.loadThreshold
  threshold_le : s.loadThreshold ≤ s.loadSigners.length

/-- Submissions, and the sources of aggregates, are of serving signers; a pending pair of a feed
and a signer is excused. -/
structure Storage.Attributed (s : Storage) (pending : FeedId → Address → Prop) : Prop where
  submitted : ∀ feedId signer submission, s.loadSubmission feedId signer = some submission →
    s.Serves signer feedId ∨ pending feedId signer
  sourced : ∀ feedId signer, signer ∈ s.sources feedId →
    s.Serves signer feedId ∨ pending feedId signer

structure Storage.WellFormed (s : Storage) : Prop where
  catalogued : s.Catalogued
  staffed : s.Staffed
  attributed : s.Attributed fun _ _ => False

/-- The parts of the storage the catalogue is about. -/
theorem Storage.Catalogued.congr (hs : s.Catalogued) (hf : s'.feeds = s.feeds)
    (ha : s'.assets = s.assets) (hm : s'.feedMapping = s.feedMapping)
    (ho : s'.feedOwner = s.feedOwner) : s'.Catalogued := by
  obtain ⟨h1, h2, h3, h4, h5⟩ := hs
  constructor
  · rw [hf]
    exact h1
  · rw [ha]
    exact h2
  · rw [hm, ho]
    exact h3
  · rw [hm, hf]
    exact h4
  · rw [hm, ha]
    exact h5

theorem Storage.Staffed.congr (hs : s.Staffed) (hsig : s'.signers = s.signers)
    (ht : s'.threshold = s.threshold) : s'.Staffed := by
  have hsigners : s'.loadSigners = s.loadSigners := by rw [loadSigners, hsig, ← loadSigners]
  have hthreshold : s'.loadThreshold = s.loadThreshold := by
    rw [loadThreshold, ht, ← loadThreshold]
  obtain ⟨h1, h2, h3⟩ := hs
  constructor
  · rw [hsigners]
    exact h1
  · rw [hthreshold]
    exact h2
  · rw [hthreshold, hsigners]
    exact h3

theorem Storage.Serves.congr {signer : Address} (hs : s.Serves signer feedId)
    (hsig : s'.signers = s.signers) (hf : s'.feeds = s.feeds)
    (hl : s'.signerFeeds = s.signerFeeds) : s'.Serves signer feedId := by
  obtain ⟨h1, h2, h3⟩ := hs
  refine ⟨?_, ?_, ?_⟩
  · rw [loadSigners, hsig]
    exact h1
  · rw [feedIndexContains, hf]
    exact h2
  · rw [loadSignerFeeds, hl]
    exact h3

/-! ## Recomputing -/

/-- Everything a recompute can do: it touches the feed's aggregate and history only, and the
aggregate it leaves comes from stored submissions of registered signers, or, on a retained miss,
is the one that was there. -/
theorem recomputeAggregate_ok {onMiss : QuorumMiss}
    (h : s.recomputeAggregate now feedId onMiss = .ok s') :
    ∃ currentAggregate sources history,
      s' = { s with currentAggregate, sources, history } ∧
      (∀ other ≠ feedId, sources other = s.sources other) ∧
      ∀ signer ∈ sources feedId,
        (signer ∈ s.loadSigners ∧ ∃ submission, s.loadSubmission feedId signer = some submission) ∨
        (onMiss = .retain ∧ signer ∈ s.sources feedId) := by
  unfold Storage.recomputeAggregate at h
  obtain ⟨formed, hform, h⟩ := Fallible.bind_ok h
  cases formed with
  | none =>
    obtain rfl := Fallible.pure_ok_iff.mp h
    cases onMiss with
    | clear =>
      refine ⟨_, _, s.history, rfl, fun other hne => Function.update_of_ne hne .., ?_⟩
      intro signer hmem
      rw [Function.update_self] at hmem
      cases hmem
    | retain =>
      exact ⟨s.currentAggregate, s.sources, s.history, rfl, fun _ _ => rfl,
        fun signer hmem => .inr ⟨rfl, hmem⟩⟩
  | some aggregate =>
    obtain rfl := Fallible.pure_ok_iff.mp h
    obtain ⟨history, hpush⟩ := (s.storeAggregate feedId aggregate
      ((s.clusteredSubmissions now feedId).map (·.1))).pushHistory_eq feedId aggregate
    refine ⟨_, _, history, hpush, fun other hne => Function.update_of_ne hne .., ?_⟩
    intro signer hmem
    simp only [Storage.storeAggregate, Function.update_self] at hmem
    obtain ⟨e, he, rfl⟩ := List.mem_map.mp hmem
    obtain ⟨hsigner, hload⟩ := Storage.loadSubmission_of_clustered he
    exact .inl ⟨hsigner, e.2, hload⟩

/-- A recompute keeps the attribution, and clears up what was pending for its feed unless that is
excused for a registered signer's submission. -/
theorem Storage.Attributed.recompute {pending Q : FeedId → Address → Prop}
    {onMiss : QuorumMiss} (hs : s.Attributed pending)
    (h : s.recomputeAggregate now feedId onMiss = .ok s')
    (hother : ∀ other signer, other ≠ feedId → pending other signer → Q other signer)
    (hsub : ∀ signer submission, s.loadSubmission feedId signer = some submission →
      s.Serves signer feedId)
    (hretain : onMiss = .retain → ∀ signer, pending feedId signer → Q feedId signer) :
    s'.Attributed Q := by
  obtain ⟨agg, sources, history, rfl, hne, hsources⟩ := recomputeAggregate_ok h
  have hserves : ∀ {signer other}, s.Serves signer other →
      Storage.Serves { s with currentAggregate := agg, sources, history } signer other :=
    fun hs => hs.congr rfl rfl rfl
  constructor
  · intro other signer submission hload
    by_cases hfeed : other = feedId
    · subst hfeed
      exact .inl (hserves (hsub signer submission hload))
    · rcases hs.submitted other signer submission hload with hsv | hp
      · exact .inl (hserves hsv)
      · exact .inr (hother other signer hfeed hp)
  · intro other signer hmem
    by_cases hfeed : other = feedId
    · subst hfeed
      rcases hsources signer hmem with ⟨-, submission, hload⟩ | ⟨hmiss, hold⟩
      · exact .inl (hserves (hsub signer submission hload))
      · rcases hs.sourced other signer hold with hsv | hp
        · exact .inl (hserves hsv)
        · exact .inr (hretain hmiss signer hp)
    · have hold : signer ∈ s.sources other := hne other hfeed ▸ hmem
      rcases hs.sourced other signer hold with hsv | hp
      · exact .inl (hserves hsv)
      · exact .inr (hother other signer hfeed hp)

theorem Storage.WellFormed.recompute {onMiss : QuorumMiss} (hs : s.WellFormed)
    (h : s.recomputeAggregate now feedId onMiss = .ok s') : s'.WellFormed := by
  have hattr : s'.Attributed fun _ _ => False :=
    hs.attributed.recompute h (fun _ _ _ hp => hp)
      (fun signer submission hload => (hs.attributed.submitted _ _ _ hload).resolve_right id)
      fun _ _ hp => hp
  obtain ⟨agg, sources, history, rfl, -, -⟩ := recomputeAggregate_ok h
  exact ⟨hs.catalogued.congr rfl rfl rfl rfl, hs.staffed.congr rfl rfl, hattr⟩

/-! ## Signers -/

theorem Admin.addSigner_wellFormed {signer : Address} (hs : s.WellFormed)
    (h : addSigner signer s = .ok s') : s'.WellFormed := by
  simp only [addSigner, Fallible.bind_ok_iff, Fallible.require_ok_iff, Fallible.pure_ok_iff] at h
  obtain ⟨-, hnew, rfl⟩ := h
  have hserves : ∀ {a f}, s.Serves a f →
      Storage.Serves { s with signers := some (s.loadSigners ++ [signer]) } a f :=
    fun hs => ⟨List.mem_append_left _ hs.1, hs.2⟩
  refine ⟨hs.catalogued.congr rfl rfl rfl rfl, ⟨?_, hs.staffed.threshold_pos, ?_⟩, ?_, ?_⟩
  · exact List.nodup_append.mpr ⟨hs.staffed.nodup, List.nodup_singleton _, fun a ha b hb => by
      rintro rfl
      exact hnew (List.mem_singleton.mp hb ▸ ha)⟩
  · refine hs.staffed.threshold_le.trans ?_
    simp [Storage.loadSigners]
  · exact fun f a sub hload => (hs.attributed.submitted f a sub hload).imp_left hserves
  · exact fun f a hmem => (hs.attributed.sourced f a hmem).imp_left hserves

/-- The loop of `remove_signer`: after each feed, what is still pending are the later ones. -/
theorem Admin.removeSigner_loop {signer : Address} {feeds : List FeedId} {t t' : Storage}
    (hgone : signer ∉ t.loadSigners) (hcat : t.Catalogued) (hstaff : t.Staffed)
    (hattr : t.Attributed fun f a => a = signer ∧ f ∈ feeds)
    (h : feeds.foldlM (fun s feedId =>
      (s.removeSubmission feedId signer).recomputeAggregate now feedId .clear) t = .ok t') :
    signer ∉ t'.loadSigners ∧ t'.WellFormed := by
  induction feeds generalizing t with
  | nil =>
    obtain rfl := Fallible.foldlM_nil_ok h
    refine ⟨hgone, hcat, hstaff, ?_, ?_⟩
    · exact fun f a sub hload => (hattr.submitted f a sub hload).imp_right fun hp => by cases hp.2
    · exact fun f a hmem => (hattr.sourced f a hmem).imp_right fun hp => by cases hp.2
  | cons feedId feeds ih =>
    obtain ⟨u, hstep, hrest⟩ := Fallible.foldlM_cons_ok h
    have hload : ∀ f a sub, (t.removeSubmission feedId signer).loadSubmission f a = some sub →
        t.loadSubmission f a = some sub ∧ ¬ (f = feedId ∧ a = signer) := by
      intro f a sub hsome
      unfold Storage.loadSubmission Storage.removeSubmission at hsome
      by_cases hf : f = feedId
      · subst hf
        by_cases ha : a = signer
        · subst ha
          simp at hsome
        · simp only [Function.update_self, Function.update_of_ne ha] at hsome
          exact ⟨hsome, fun hp => ha hp.2⟩
      · simp only [Function.update_of_ne hf] at hsome
        exact ⟨hsome, fun hp => hf hp.1⟩
    have hremoved : (t.removeSubmission feedId signer).Attributed
        fun f a => a = signer ∧ f ∈ feedId :: feeds :=
      ⟨fun f a sub hsome => hattr.submitted f a sub (hload f a sub hsome).1, hattr.sourced⟩
    have hnext := hremoved.recompute (Q := fun f a => a = signer ∧ f ∈ feeds) hstep
      (fun f a hne hp => ⟨hp.1, (List.mem_cons.mp hp.2).resolve_left hne⟩)
      (fun a sub hsome => by
        obtain ⟨hold, hnot⟩ := hload feedId a sub hsome
        exact (hattr.submitted feedId a sub hold).resolve_right fun hp => hnot ⟨rfl, hp.1⟩)
      (by simp)
    obtain ⟨agg, sources, history, rfl, -, -⟩ := recomputeAggregate_ok hstep
    refine ih ?_ ?_ ?_ hnext hrest
    · exact hgone
    · exact hcat.congr rfl rfl rfl rfl
    · exact hstaff.congr rfl rfl

theorem Admin.removeSigner_wellFormed {signer : Address} (hs : s.WellFormed)
    (h : removeSigner now signer s = .ok s') : s'.WellFormed := by
  simp only [removeSigner, Fallible.bind_ok_iff, Fallible.require_ok_iff,
    Fallible.pure_ok_iff] at h
  obtain ⟨-, hmem, -, hthreshold, t, hloop, rfl⟩ := h
  have hgone : signer ∉ s.loadSigners.erase signer := hs.staffed.nodup.not_mem_erase
  have hserves : ∀ {a f}, s.Serves a f →
      Storage.Serves { s with signers := some (s.loadSigners.erase signer) } a f ∨
        a = signer ∧ f ∈ s.loadSignerFeeds signer := by
    rintro a f ⟨h1, h2, h3⟩
    by_cases ha : a = signer
    · exact .inr ⟨ha, ha ▸ h3⟩
    · exact .inl ⟨(List.mem_erase_of_ne ha).mpr h1, h2, h3⟩
  obtain ⟨hgone', hwf⟩ : signer ∉ t.loadSigners ∧ t.WellFormed := by
    refine removeSigner_loop ?_ ?_ ?_ ?_ hloop
    · exact hgone
    · exact hs.catalogued.congr rfl rfl rfl rfl
    · refine ⟨hs.staffed.nodup.erase _, hs.staffed.threshold_pos, ?_⟩
      show s.loadThreshold ≤ (s.loadSigners.erase signer).length
      rwa [List.length_erase_of_mem hmem]
    · exact ⟨fun f a sub hload => hserves ((hs.attributed.submitted f a sub hload).resolve_right id),
        fun f a hsrc => hserves ((hs.attributed.sourced f a hsrc).resolve_right id)⟩
  -- The list that goes is that of the signer that is gone, so nobody registered loses a feed.
  have hkeep : ∀ {a f}, t.Serves a f → (t.clearSignerFeeds signer).Serves a f := by
    rintro a f ⟨h1, h2, h3⟩
    have ha : a ≠ signer := fun heq => hgone' (heq ▸ h1)
    refine ⟨h1, h2, ?_⟩
    simp only [Storage.loadSignerFeeds, Storage.clearSignerFeeds, Function.update_of_ne ha]
    exact h3
  exact ⟨hwf.catalogued.congr rfl rfl rfl rfl, hwf.staffed.congr rfl rfl,
    fun f a sub hload => (hwf.attributed.submitted f a sub hload).imp_left hkeep,
    fun f a hsrc => (hwf.attributed.sourced f a hsrc).imp_left hkeep⟩

/-! ## Submissions -/

theorem Storage.WellFormed.storeSubmission {signer : Address} {price : Int}
    {packageTimestamp : Nat} (hs : s.WellFormed) (hsigner : signer ∈ s.loadSigners)
    (hknown : s.feedIndexContains feedId = true) :
    (s.storeSubmission feedId signer price packageTimestamp).WellFormed := by
  -- The feed list only grows, and afterwards it holds the feed.
  obtain ⟨signerFeeds, hrecord, hgrows, hholds⟩ : ∃ signerFeeds,
      s.recordSignerFeed signer feedId = { s with signerFeeds } ∧
      (∀ a f, f ∈ s.loadSignerFeeds a → f ∈ (signerFeeds a).getD []) ∧
      feedId ∈ (signerFeeds signer).getD [] := by
    unfold Storage.recordSignerFeed
    split
    · rename_i hmem
      exact ⟨s.signerFeeds, rfl, fun _ _ h => h, hmem⟩
    · refine ⟨_, rfl, fun a f hmem => ?_, ?_⟩
      · by_cases ha : a = signer
        · subst ha
          rw [Function.update_self, Option.getD_some]
          exact List.mem_append_left _ hmem
        · rw [Function.update_of_ne ha]
          exact hmem
      · rw [Function.update_self, Option.getD_some]
        exact List.mem_append_right _ (List.mem_singleton_self _)
  have hserves : ∀ {a f}, s.Serves a f →
      (s.storeSubmission feedId signer price packageTimestamp).Serves a f := by
    rintro a f ⟨h1, h2, h3⟩
    rw [Storage.storeSubmission, hrecord]
    exact ⟨h1, h2, hgrows a f h3⟩
  have hnew : (s.storeSubmission feedId signer price packageTimestamp).Serves signer feedId := by
    rw [Storage.storeSubmission, hrecord]
    exact ⟨hsigner, hknown, hholds⟩
  have hload : ∀ f a sub,
      (s.storeSubmission feedId signer price packageTimestamp).loadSubmission f a = some sub →
      f = feedId ∧ a = signer ∨ s.loadSubmission f a = some sub := by
    intro f a sub hsome
    simp only [Storage.storeSubmission, hrecord, Storage.storeSubmissionRecord,
      Storage.loadSubmission] at hsome
    by_cases hf : f = feedId
    · subst hf
      by_cases ha : a = signer
      · exact .inl ⟨rfl, ha⟩
      · simp only [Function.update_self, Function.update_of_ne ha] at hsome
        exact .inr hsome
    · simp only [Function.update_of_ne hf] at hsome
      exact .inr hsome
  have hattr : (s.storeSubmission feedId signer price packageTimestamp).Attributed
      fun _ _ => False := by
    constructor
    · intro f a sub hsome
      rcases hload f a sub hsome with ⟨rfl, rfl⟩ | hold
      · exact .inl hnew
      · exact (hs.attributed.submitted f a sub hold).imp_left hserves
    · intro f a hsrc
      have hold : a ∈ s.sources f := by
        simpa only [Storage.storeSubmission, hrecord, Storage.storeSubmissionRecord] using hsrc
      exact (hs.attributed.sourced f a hold).imp_left hserves
  refine ⟨hs.catalogued.congr ?_ ?_ ?_ ?_, hs.staffed.congr ?_ ?_, hattr⟩
  all_goals rw [Storage.storeSubmission, hrecord]; rfl

theorem Submit.submitPrice_wellFormed {signer : Address} {price : Int} {packageTimestamp : Nat}
    (hs : s.WellFormed) (h : submitPrice now signer feedId price packageTimestamp s = .ok s') :
    s'.WellFormed := by
  simp only [submitPrice, Fallible.bind_ok_iff, Storage.requireRegisteredSigner,
    Storage.requireKnownFeed, Fallible.require_ok_iff] at h
  obtain ⟨-, hsigner, -, hknown, -, -, -, -, -, -, -, -, h⟩ := h
  exact (hs.storeSubmission hsigner hknown).recompute h

theorem Submit.submitPrices_wellFormed {signer : Address} {feedIds : List FeedId}
    {prices : List Int} {packageTimestamp : Nat} (hs : s.WellFormed)
    (h : submitPrices now signer feedIds prices packageTimestamp s = .ok s') :
    s'.WellFormed := by
  simp only [submitPrices, Fallible.bind_ok_iff, Storage.requireRegisteredSigner,
    Fallible.require_ok_iff] at h
  obtain ⟨-, hsigner, -, -, -, -, -, -, _, hfeeds, -, -, hloop⟩ := h
  have hknown : ∀ f ∈ feedIds, s.feedIndexContains f = true := by
    intro f hf
    have hcheck := Fallible.forM_ok hfeeds f hf
    simp only [Fallible.bind_ok_iff, Storage.requireKnownFeed, Fallible.require_ok_iff] at hcheck
    exact hcheck.choose_spec.1
  -- Neither the signers nor the known feeds change while the batch is stored.
  refine (Fallible.foldlM_inv (P := fun t : Storage => t.WellFormed ∧
    t.loadSigners = s.loadSigners ∧ t.feeds = s.feeds) ?_ ⟨hs, rfl, rfl⟩ hloop).1
  rintro t ⟨f, price⟩ t' hmem ⟨hwf, hsig, hfd⟩ hstep
  have hstored : (t.storeSubmission f signer price packageTimestamp).WellFormed := by
    refine hwf.storeSubmission (hsig ▸ hsigner) ?_
    rw [Storage.feedIndexContains, hfd]
    exact hknown f (List.of_mem_zip hmem).1
  refine ⟨hstored.recompute hstep, ?_⟩
  obtain ⟨agg, sources, history, rfl, -, -⟩ := recomputeAggregate_ok hstep
  have hrecord : ∃ signerFeeds, t.recordSignerFeed signer f = { t with signerFeeds } := by
    unfold Storage.recordSignerFeed
    split <;> exact ⟨_, rfl⟩
  obtain ⟨signerFeeds, hrecord⟩ := hrecord
  simp only [Storage.storeSubmission, hrecord, Storage.storeSubmissionRecord]
  exact ⟨hsig, hfd⟩

theorem Admin.recomputeFeeds_wellFormed {feedIds : List FeedId} (hs : s.WellFormed)
    (h : recomputeFeeds now feedIds s = .ok s') : s'.WellFormed := by
  obtain ⟨-, -, hloop⟩ := Fallible.bind_ok h
  exact Fallible.foldlM_inv (fun t f t' _ ht hstep => ht.recompute hstep) hs hloop

/-! ## Feeds -/

theorem Storage.ensureKnownFeed_ok (hs : s.feeds.WellFormed)
    (h : s.ensureKnownFeed feedId = .ok s') :
    ∃ feeds, s' = { s with feeds } ∧ feeds.WellFormed ∧
      ∀ f, feeds.contains f = true ↔ f = feedId ∨ s.feeds.contains f = true := by
  unfold ensureKnownFeed at h
  split at h
  · rename_i hknown
    obtain rfl := Fallible.pure_ok_iff.mp h
    refine ⟨s.feeds, rfl, hs, fun f => ⟨.inr, ?_⟩⟩
    rintro (rfl | hf)
    · exact hknown
    · exact hf
  · rename_i hnew
    simp only [feedIndexInsert, Fallible.bind_ok_iff, Fallible.pure_ok_iff] at h
    obtain ⟨-, -, rfl⟩ := h
    exact ⟨_, rfl, SwapIndex.insert_wellFormed hs (by simpa [feedIndexContains] using hnew),
      fun f => SwapIndex.contains_insert⟩

/-- More feeds are known: whoever served a feed still does. -/
theorem Storage.Attributed.mono {feeds : SwapIndex FeedId} {assets : SwapIndex ReflectorAsset}
    {feedMapping : ReflectorAsset → Option FeedId} {feedOwner : FeedId → Option ReflectorAsset}
    (hs : s.Attributed fun _ _ => False)
    (hfeeds : ∀ f, s.feeds.contains f = true → feeds.contains f = true) :
    Storage.Attributed { s with feeds, assets, feedMapping, feedOwner } fun _ _ => False := by
  have hserves : ∀ {a f}, s.Serves a f →
      Storage.Serves { s with feeds, assets, feedMapping, feedOwner } a f :=
    fun ⟨h1, h2, h3⟩ => ⟨h1, hfeeds _ h2, h3⟩
  exact ⟨fun f a sub hload => (hs.submitted f a sub hload).imp_left hserves,
    fun f a hsrc => (hs.sourced f a hsrc).imp_left hserves⟩

theorem Admin.registerFeed_wellFormed (hs : s.WellFormed) (h : registerFeed feedId s = .ok s') :
    s'.WellFormed := by
  obtain ⟨_, -, h⟩ := Fallible.bind_ok h
  obtain ⟨feeds, rfl, hwf, hmem⟩ := Storage.ensureKnownFeed_ok hs.catalogued.feeds h
  obtain ⟨-, hassets, hmap, hknown, hmapped⟩ := hs.catalogued
  exact ⟨⟨hwf, hassets, hmap, fun a f hf => (hmem f).mpr (.inr (hknown a f hf)), hmapped⟩,
    hs.staffed.congr rfl rfl, hs.attributed.mono fun f hf => (hmem f).mpr (.inr hf)⟩

theorem Admin.addFeed_wellFormed {asset : ReflectorAsset} (hs : s.WellFormed)
    (h : addFeed feedId asset s = .ok s') : s'.WellFormed := by
  simp only [addFeed, Fallible.bind_ok_iff, Fallible.require_ok_iff,
    Storage.assetIndexInsert, Fallible.pure_ok_iff] at h
  obtain ⟨-, hunmapped, -, hunowned, t, hensure, -, -, rfl⟩ := h
  obtain ⟨hfeeds, hassets, hmap, hknown, hmapped⟩ := hs.catalogued
  obtain ⟨feeds, rfl, hwf, hmem⟩ := Storage.ensureKnownFeed_ok
    (s := s.mapFeed asset feedId) hfeeds hensure
  have hfree : s.feedMapping asset = none := by simpa [Storage.hasFeedMapping] using hunmapped
  have hasset : s.assets.contains asset = false := by
    rw [Bool.eq_false_iff, Ne, hmapped]
    rintro ⟨f, hf⟩
    rw [hfree] at hf
    cases hf
  have howner : s.feedOwner feedId = none := hunowned
  refine ⟨⟨hwf, SwapIndex.insert_wellFormed hassets hasset, fun a f => ?_, fun a f hf => ?_,
    fun a => ?_⟩, hs.staffed.congr rfl rfl, hs.attributed.mono fun f hf => (hmem f).mpr (.inr hf)⟩
  · -- Neither side of the new pair was mapped before.
    have hold := hmap a f
    simp only [Storage.mapFeed]
    by_cases ha : a = asset <;> by_cases hf : f = feedId
    · simp [ha, hf]
    · have hne : s.feedOwner f ≠ some asset := by rw [Ne, ← hmap, hfree]; simp
      simpa [ha, Function.update_of_ne hf, hne] using Ne.symm hf
    · have hne : s.feedMapping a ≠ some feedId := by rw [Ne, hmap, howner]; simp
      simpa [hf, Function.update_of_ne ha, hne] using Ne.symm ha
    · simpa [Function.update_of_ne ha, Function.update_of_ne hf] using hold
  · rw [hmem]
    simp only [Storage.mapFeed, Function.update_apply] at hf
    split at hf
    · exact .inl (Option.some.inj hf).symm
    · exact .inr (hknown a f hf)
  · rw [SwapIndex.contains_insert]
    simp only [Storage.mapFeed, Function.update_apply, hmapped]
    by_cases ha : a = asset
    · simp [ha]
    · simp [ha]

/-- One signer's submission for a feed and its entry in the signer's feed list are dropped. -/
structure Storage.Dropped (feedId : FeedId) (signers : List Address) (s s' : Storage) : Prop where
  same : ∃ latestSubmission signerFeeds, s' = { s with latestSubmission, signerFeeds }
  dropped : ∀ a ∈ signers, s'.latestSubmission feedId a = none
  submissions : ∀ f a submission, s'.latestSubmission f a = some submission →
    s.latestSubmission f a = some submission
  lists : ∀ f a, f ≠ feedId → f ∈ s.loadSignerFeeds a → f ∈ s'.loadSignerFeeds a

theorem Storage.removeSignerFeed_eq (s : Storage) (feedId : FeedId) (signer : Address) :
    ∃ signerFeeds, s.removeSignerFeed signer feedId = { s with signerFeeds } ∧
      ∀ f a, f ≠ feedId → f ∈ s.loadSignerFeeds a → f ∈ (signerFeeds a).getD [] := by
  unfold removeSignerFeed
  cases hlist : s.signerFeeds signer with
  | none => exact ⟨s.signerFeeds, rfl, fun _ _ _ h => h⟩
  | some feeds =>
    refine ⟨_, rfl, fun f a hf hmem => ?_⟩
    by_cases ha : a = signer
    · subst ha
      rw [loadSignerFeeds, hlist, Option.getD_some] at hmem
      have hkept : f ∈ feeds.filter (· ≠ feedId) := by simp [hmem, hf]
      have hne : (feeds.filter (· ≠ feedId)).isEmpty = false := by
        rw [List.isEmpty_eq_false_iff_exists_mem]
        exact ⟨f, hkept⟩
      rw [Function.update_self, hne]
      exact hkept
    · rw [Function.update_of_ne ha]
      exact hmem

/-- The loop of `clear_feed_state`. -/
theorem Storage.dropped_foldl {signers : List Address} :
    Dropped feedId signers s (signers.foldl (fun s signer =>
      (s.removeSubmission feedId signer).removeSignerFeed signer feedId) s) := by
  induction signers generalizing s with
  | nil =>
    exact ⟨⟨s.latestSubmission, s.signerFeeds, rfl⟩, fun a ha => absurd ha List.not_mem_nil,
      fun _ _ _ h => h, fun _ _ _ h => h⟩
  | cons signer signers ih =>
    obtain ⟨feedLists, heq, hlists⟩ :=
      (s.removeSubmission feedId signer).removeSignerFeed_eq feedId signer
    rw [List.foldl_cons, heq]
    obtain ⟨⟨subs, lists, hsame⟩, hdropped, hsubs, hkeep⟩ :=
      ih (s := { s.removeSubmission feedId signer with signerFeeds := feedLists })
    have hstep : ∀ f a submission,
        (s.removeSubmission feedId signer).latestSubmission f a = some submission →
        s.latestSubmission f a = some submission ∧ ¬ (f = feedId ∧ a = signer) := by
      intro f a sub hsome
      simp only [removeSubmission, Function.update_apply] at hsome
      grind
    refine ⟨⟨subs, lists, hsame⟩, fun a ha => ?_, fun f a sub h => (hstep f a sub
      (hsubs f a sub h)).1, fun f a hf hmem => hkeep f a hf (hlists f a hf hmem)⟩
    rcases List.mem_cons.mp ha with rfl | ha
    · cases hget : (signers.foldl _ _ : Storage).latestSubmission feedId a with
      | none => rfl
      | some sub => exact absurd ⟨rfl, rfl⟩ (hstep _ _ _ (hsubs _ _ _ hget)).2
    · exact hdropped a ha

/-- What clearing a feed does: nothing is left of the feed but its asset's mapping. -/
structure Storage.Cleared (feedId : FeedId) (s s' : Storage) : Prop where
  feeds : s'.feeds.WellFormed
  known : ∀ f, s'.feeds.contains f = true ↔ f ≠ feedId ∧ s.feeds.contains f = true
  assets : s'.assets = s.assets
  mapping : s'.feedMapping = s.feedMapping
  owner : s'.feedOwner = Function.update s.feedOwner feedId none
  staffed : s'.Staffed
  attributed : s'.Attributed fun _ _ => False

theorem Storage.clearFeedState_cleared (h : s.clearFeedState feedId = .ok s')
    (hfeeds : s.feeds.WellFormed) (hstaff : s.Staffed) (hattr : s.Attributed fun _ _ => False) :
    Cleared feedId s s' := by
  have hloop : Dropped feedId s.loadSigners ((s.removeAggregate feedId).removeHistory feedId)
      (s.loadSigners.foldl (fun s signer =>
        (s.removeSubmission feedId signer).removeSignerFeed signer feedId)
        ((s.removeAggregate feedId).removeHistory feedId)) := dropped_foldl
  unfold clearFeedState at h
  dsimp only at h
  generalize s.loadSigners.foldl (fun s signer =>
    (s.removeSubmission feedId signer).removeSignerFeed signer feedId)
    ((s.removeAggregate feedId).removeHistory feedId) = t at h hloop
  obtain ⟨⟨subs, lists, rfl⟩, hdropped, hsubs, hlists⟩ := hloop
  simp only [feedIndexRemove, Fallible.bind_ok_iff, Fallible.orThrow_ok_iff,
    Fallible.pure_ok_iff] at h
  obtain ⟨feeds, hremove, rfl⟩ := h
  have hknown : ∀ f, feeds.contains f = true ↔ f ≠ feedId ∧ s.feeds.contains f = true :=
    fun f => SwapIndex.contains_remove hfeeds hremove
  have hserves : ∀ {a f}, f ≠ feedId → s.Serves a f →
      a ∈ s.loadSigners ∧ feeds.contains f = true ∧ f ∈ (lists a).getD [] :=
    fun hf hs => ⟨hs.1, (hknown _).mpr ⟨hf, hs.2.1⟩, hlists _ _ hf hs.2.2⟩
  refine ⟨SwapIndex.remove_wellFormed hfeeds hremove, hknown, rfl, rfl, rfl,
    hstaff.congr rfl rfl, ?_, ?_⟩
  · intro f a sub hload
    have hold := hattr.submitted f a sub (hsubs f a sub hload)
    by_cases hf : f = feedId
    · -- Whoever had submitted for the feed is registered, so the loop reached that submission.
      subst hf
      have hnone : subs f a = none := hdropped a (hold.resolve_right id).1
      have hsome : subs f a = some sub := hload
      rw [hnone] at hsome
      cases hsome
    · exact .inl (hserves hf (hold.resolve_right id))
  · intro f a hsrc
    have hsrc' : a ∈ Function.update s.sources feedId [] f := hsrc
    by_cases hf : f = feedId
    · subst hf
      rw [Function.update_self] at hsrc'
      cases hsrc'
    · rw [Function.update_of_ne hf] at hsrc'
      exact .inl (hserves hf ((hattr.sourced f a hsrc').resolve_right id))

theorem Admin.clearAssetAndFeed_wellFormed {asset : ReflectorAsset} (hs : s.WellFormed)
    (hmapping : s.feedMapping asset = some feedId)
    (h : clearAssetAndFeed asset feedId s = .ok s') : s'.WellFormed := by
  simp only [clearAssetAndFeed, Storage.assetIndexRemove, Fallible.bind_ok_iff,
    Fallible.orThrow_ok_iff, Fallible.pure_ok_iff] at h
  obtain ⟨t, ⟨assets, hremove, rfl⟩, hclear⟩ := h
  obtain ⟨hfeeds, hassets, hmap, hknown, hmapped⟩ := hs.catalogued
  obtain ⟨hfeeds', hknown', hassets', hmapping', howner', hstaff', hattr'⟩ :=
    Storage.clearFeedState_cleared hclear hfeeds (hs.staffed.congr rfl rfl)
      (hs.attributed.mono fun _ hf => hf)
  have howner : s.feedOwner feedId = some asset := (hmap asset feedId).mp hmapping
  refine ⟨⟨hfeeds', ?_, fun a f => ?_, fun a f hf => ?_, fun a => ?_⟩, hstaff', hattr'⟩
  · rw [hassets']
    exact SwapIndex.remove_wellFormed hassets hremove
  · have hold := hmap a f
    rw [hmapping', howner']
    simp only [Storage.removeFeedMapping]
    by_cases ha : a = asset <;> by_cases hf : f = feedId
    · simp [ha, hf]
    · have hne : s.feedOwner f ≠ some asset := by
        rw [Ne, ← hmap, hmapping, Option.some.injEq]
        exact Ne.symm hf
      simp [ha, Function.update_of_ne hf, hne]
    · have hne : s.feedMapping a ≠ some feedId := by
        rw [Ne, hmap, howner, Option.some.injEq]
        exact Ne.symm ha
      simp [hf, Function.update_of_ne ha, hne]
    · simpa [Function.update_of_ne ha, Function.update_of_ne hf] using hold
  · rw [hmapping'] at hf
    simp only [Storage.removeFeedMapping, Function.update_apply] at hf
    split at hf
    · cases hf
    · rename_i ha
      refine (hknown' f).mpr ⟨?_, hknown a f hf⟩
      rintro rfl
      rw [hmap, howner] at hf
      exact ha (Option.some.inj hf).symm
  · rw [hassets', hmapping']
    refine (SwapIndex.contains_remove hassets hremove).trans ?_
    simp only [Storage.removeFeedMapping, Function.update_apply]
    by_cases ha : a = asset
    · simp [ha]
    · simp [ha, hmapped]

theorem Admin.removeFeed_wellFormed {asset : ReflectorAsset} (hs : s.WellFormed)
    (h : removeFeed asset s = .ok s') : s'.WellFormed := by
  simp only [removeFeed, Fallible.bind_ok_iff, Fallible.orThrow_ok_iff] at h
  obtain ⟨f, hmapping, h⟩ := h
  exact clearAssetAndFeed_wellFormed hs hmapping h

theorem Admin.purgeFeed_wellFormed (hs : s.WellFormed) (h : purgeFeed feedId s = .ok s') :
    s'.WellFormed := by
  obtain ⟨_, -, h⟩ := Fallible.bind_ok h
  cases howner : s.loadFeedOwner feedId with
  | some asset =>
    rw [howner] at h
    exact clearAssetAndFeed_wellFormed hs ((hs.catalogued.mapping asset feedId).mpr howner) h
  | none =>
    rw [howner] at h
    obtain ⟨hfeeds, hassets, hmap, hknown, hmapped⟩ := hs.catalogued
    obtain ⟨hfeeds', hknown', hassets', hmapping', howner', hstaff', hattr'⟩ :=
      Storage.clearFeedState_cleared h hfeeds hs.staffed hs.attributed
    have hsame : s'.feedOwner = s.feedOwner := by
      rw [howner']
      exact Function.update_eq_self_iff.mpr howner.symm
    refine ⟨⟨hfeeds', hassets' ▸ hassets, ?_, fun a f hf => ?_, ?_⟩, hstaff', hattr'⟩
    · rw [hmapping', hsame]
      exact hmap
    · rw [hmapping'] at hf
      refine (hknown' f).mpr ⟨?_, hknown a f hf⟩
      rintro rfl
      rw [hmap] at hf
      exact absurd (hf.symm.trans howner) (Option.some_ne_none _)
    · rw [hassets', hmapping']
      exact hmapped

/-! ## Runs -/

theorem construct_wellFormed {signers : List Address} {threshold resolution : Nat}
    (h : construct signers threshold resolution = .ok s) : s.WellFormed := by
  simp only [construct, Fallible.bind_ok_iff, Fallible.require_ok_iff,
    Fallible.pure_ok_iff] at h
  obtain ⟨-, ⟨hpos, hle, hnodup⟩, rfl⟩ := h
  refine ⟨⟨SwapIndex.empty_wellFormed, SwapIndex.empty_wellFormed, fun a f => ?_, fun a f hf => ?_,
    fun a => ?_⟩, ⟨hnodup, Nat.one_le_iff_ne_zero.mpr hpos, hle⟩, fun f a sub hload => ?_,
    fun f a hsrc => ?_⟩
  · simp [Storage.empty]
  · cases hf
  · simp [Storage.empty]
  · cases hload
  · cases hsrc

/-- A setter that touches neither the registry nor the signers. -/
theorem Storage.WellFormed.configured (hs : s.WellFormed)
    {stale age skew resolution spread : Option Nat} :
    Storage.WellFormed { s with
      maxStaleSeconds := stale
      maxSubmissionAgeSeconds := age
      maxRelativeSkewSeconds := skew
      resolution := resolution
      maxClusterSpreadBps := spread } :=
  ⟨hs.catalogued.congr rfl rfl rfl rfl, hs.staffed.congr rfl rfl,
    hs.attributed.submitted, hs.attributed.sourced⟩

theorem OracleCall.exec_wellFormed {call : OracleCall} (hs : s.WellFormed)
    (h : call.exec now s = .ok s') : s'.WellFormed := by
  cases call with
  | addSigner => exact Admin.addSigner_wellFormed hs h
  | removeSigner => exact Admin.removeSigner_wellFormed hs h
  | setThreshold threshold =>
    obtain ⟨_, hrange, h⟩ := Fallible.bind_ok h
    obtain rfl := Fallible.pure_ok_iff.mp h
    obtain ⟨hpos, hle⟩ := Fallible.require_ok_iff.mp hrange
    exact ⟨hs.catalogued.congr rfl rfl rfl rfl,
      ⟨hs.staffed.nodup, Nat.one_le_iff_ne_zero.mpr hpos, hle⟩,
      hs.attributed.submitted, hs.attributed.sourced⟩
  | setMaxStaleSeconds =>
    obtain ⟨_, -, h⟩ := Fallible.bind_ok h
    exact Fallible.pure_ok_iff.mp h ▸ hs.configured
  | setMaxSubmissionAgeSeconds =>
    obtain ⟨_, -, h⟩ := Fallible.bind_ok h
    exact Fallible.pure_ok_iff.mp h ▸ hs.configured
  | setMaxRelativeSkewSeconds =>
    obtain ⟨_, -, h⟩ := Fallible.bind_ok h
    exact Fallible.pure_ok_iff.mp h ▸ hs.configured
  | setMaxClusterSpreadBps =>
    obtain ⟨_, -, h⟩ := Fallible.bind_ok h
    exact Fallible.pure_ok_iff.mp h ▸ hs.configured
  | setResolution => exact Fallible.pure_ok_iff.mp h ▸ hs.configured
  | recomputeFeeds => exact Admin.recomputeFeeds_wellFormed hs h
  | registerFeed => exact Admin.registerFeed_wellFormed hs h
  | addFeed => exact Admin.addFeed_wellFormed hs h
  | removeFeed => exact Admin.removeFeed_wellFormed hs h
  | purgeFeed => exact Admin.purgeFeed_wellFormed hs h
  | submitPrice => exact Submit.submitPrice_wellFormed hs h
  | submitPrices => exact Submit.submitPrices_wellFormed hs h

theorem Storage.Reachable.wellFormed (hs : s.Reachable) : s.WellFormed := by
  obtain ⟨signers, threshold, resolution, deployed, hdeploy, hrun⟩ := hs
  induction hrun with
  | refl => exact construct_wellFormed hdeploy
  | tail _ hstep ih =>
    obtain ⟨now, call, hcall⟩ := hstep
    exact call.exec_wellFormed ih hcall

/-! ## The count expectations -/

section Expectations

open Fallible (Avoids)

theorem recomputeAggregate_avoids {onMiss : QuorumMiss} :
    Avoids .indexCountExpectation (s.recomputeAggregate now feedId onMiss) := by
  refine .bind ?_ fun formed _ => ?_
  · unfold Storage.formAggregate
    dsimp only
    split
    · exact .pure
    · split
      · exact .pure
      · split
        · exact .pure
        · exact .bind (.orThrow (.inr (by decide))) fun _ _ =>
            .bind (.require (by decide)) fun _ _ => .pure
  · cases formed <;> exact .pure

theorem clearFeedState_avoids (hs : s.feeds.WellFormed) :
    Avoids .indexCountExpectation (s.clearFeedState feedId) := by
  have hloop : Storage.Dropped feedId s.loadSigners
      ((s.removeAggregate feedId).removeHistory feedId) _ := Storage.dropped_foldl
  obtain ⟨subs, lists, hsame⟩ := hloop.same
  unfold Storage.clearFeedState
  dsimp only
  rw [hsame]
  exact .bind (.orThrow (.inl hs.remove_ne_none)) fun _ _ => .pure

theorem ensureKnownFeed_avoids :
    Avoids .indexCountExpectation (s.ensureKnownFeed feedId) := by
  unfold Storage.ensureKnownFeed
  split
  · exact .pure
  · exact .bind (.require (by decide)) fun _ _ => .pure

theorem clearAssetAndFeed_avoids {asset : ReflectorAsset} (hs : s.WellFormed) :
    Avoids .indexCountExpectation (Admin.clearAssetAndFeed asset feedId s) := by
  refine .bind (.bind (.orThrow (.inl hs.catalogued.assets.remove_ne_none)) fun _ _ => .pure)
    fun t ht => clearFeedState_avoids ?_
  simp only [Storage.assetIndexRemove, Fallible.bind_ok_iff, Fallible.pure_ok_iff] at ht
  obtain ⟨assets, -, rfl⟩ := ht
  exact hs.catalogued.feeds

theorem requireMonotonicPackage_avoids {signer : Address} {packageTimestamp : Nat} :
    Avoids .indexCountExpectation (s.requireMonotonicPackage feedId signer packageTimestamp) := by
  unfold Storage.requireMonotonicPackage
  split
  · exact .pure
  · exact .require (by decide)

theorem validatePrice_avoids {price : Int} :
    Avoids .indexCountExpectation (Submit.validatePrice price) :=
  .bind (.require (by decide)) fun _ _ => .require (by decide)

theorem OracleCall.exec_avoids {call : OracleCall} (hs : s.WellFormed) :
    Avoids .indexCountExpectation (call.exec now s) := by
  cases call with
  | addSigner => exact .bind (.require (by decide)) fun _ _ => .pure
  | removeSigner signer =>
    exact .bind (.require (by decide)) fun _ _ => .bind (.require (by decide)) fun _ _ =>
      .bind (.foldlM (fun _ _ => recomputeAggregate_avoids) _) fun _ _ => .pure
  | setThreshold => exact .bind (.require (by decide)) fun _ _ => .pure
  | setMaxStaleSeconds => exact .bind (.require (by decide)) fun _ _ => .pure
  | setMaxSubmissionAgeSeconds => exact .bind (.require (by decide)) fun _ _ => .pure
  | setMaxRelativeSkewSeconds => exact .bind (.require (by decide)) fun _ _ => .pure
  | setMaxClusterSpreadBps => exact .bind (.require (by decide)) fun _ _ => .pure
  | setResolution => exact .pure
  | recomputeFeeds =>
    exact .bind (.forM fun _ => .require (by decide)) fun _ _ =>
      .foldlM (fun _ _ => recomputeAggregate_avoids) _
  | registerFeed => exact .bind (.require (by decide)) fun _ _ => ensureKnownFeed_avoids
  | addFeed =>
    exact .bind (.require (by decide)) fun _ _ => .bind (.require (by decide)) fun _ _ =>
      .bind ensureKnownFeed_avoids fun _ _ => .bind (.require (by decide)) fun _ _ => .pure
  | removeFeed =>
    exact .bind (.orThrow (.inr (by decide))) fun _ _ => clearAssetAndFeed_avoids hs
  | purgeFeed feedId =>
    refine .bind (.require (by decide)) fun _ _ => ?_
    split
    · exact clearAssetAndFeed_avoids hs
    · exact clearFeedState_avoids hs.catalogued.feeds
  | submitPrice =>
    exact .bind (.require (by decide)) fun _ _ => .bind (.require (by decide)) fun _ _ =>
      .bind validatePrice_avoids fun _ _ => .bind (.require (by decide)) fun _ _ =>
      .bind (.require (by decide)) fun _ _ => .bind requireMonotonicPackage_avoids fun _ _ =>
      recomputeAggregate_avoids
  | submitPrices =>
    exact .bind (.require (by decide)) fun _ _ => .bind (.require (by decide)) fun _ _ =>
      .bind (.require (by decide)) fun _ _ => .bind (.require (by decide)) fun _ _ =>
      .bind (.forM fun _ => .bind (.require (by decide)) fun _ _ => requireMonotonicPackage_avoids)
      fun _ _ => .bind (.forM fun _ => validatePrice_avoids) fun _ _ =>
      .foldlM (fun _ _ => recomputeAggregate_avoids) _

end Expectations

/-- **Storage invariant.** After deployment and any sequence of calls at any ledger times. -/
theorem oracle_storage_invariant {s : Storage} (hs : s.Reachable) :
    ((∀ i, (s.feeds.slotAt i).isSome ↔ i < s.feeds.count) ∧
      (∀ i j f, s.feeds.slotAt i = some f → s.feeds.slotAt j = some f → i = j) ∧
      ∀ i f, s.feeds.slotAt i = some f ↔ s.feeds.indexOf f = some i) ∧
    ((∀ i, (s.assets.slotAt i).isSome ↔ i < s.assets.count) ∧
      (∀ i j a, s.assets.slotAt i = some a → s.assets.slotAt j = some a → i = j) ∧
      ∀ i a, s.assets.slotAt i = some a ↔ s.assets.indexOf a = some i) ∧
    (∀ asset feedId, s.feedMapping asset = some feedId ↔ s.feedOwner feedId = some asset) ∧
    (∀ asset feedId, s.feedMapping asset = some feedId → s.feeds.contains feedId = true) ∧
    (∀ asset, s.assets.contains asset = true ↔ ∃ feedId, s.feedMapping asset = some feedId) ∧
    (∀ feedId signer submission, s.latestSubmission feedId signer = some submission →
      signer ∈ s.loadSigners ∧ s.feeds.contains feedId = true ∧
        feedId ∈ s.loadSignerFeeds signer) ∧
    (s.loadSigners.Nodup ∧ 1 ≤ s.loadThreshold ∧ s.loadThreshold ≤ s.loadSigners.length) ∧
    (∀ feedId aggregate, s.currentAggregate feedId = some aggregate →
      ∀ signer ∈ s.sources feedId, signer ∈ s.loadSigners) ∧
    ∀ now (call : OracleCall), call.exec now s ≠ .error .indexCountExpectation := by
  obtain ⟨hcat, hstaff, hattr⟩ := hs.wellFormed
  have hserves : ∀ {feedId signer}, s.Serves signer feedId ∨ False → s.Serves signer feedId :=
    fun h => h.resolve_right id
  refine ⟨⟨hcat.feeds.filled, fun i j f => hcat.feeds.slot_injective, hcat.feeds.inverse⟩,
    ⟨hcat.assets.filled, fun i j a => hcat.assets.slot_injective, hcat.assets.inverse⟩,
    hcat.mapping, hcat.known, hcat.mapped, fun feedId signer submission hsub => ?_,
    ⟨hstaff.nodup, hstaff.threshold_pos, hstaff.threshold_le⟩,
    fun feedId aggregate _ signer hsrc => ?_, fun now call => call.exec_avoids hs.wellFormed⟩
  · exact hserves (hattr.submitted feedId signer submission hsub)
  · exact (hserves (hattr.sourced feedId signer hsrc)).1

theorem Storage.reachable_of_calls {signers : List Address} {threshold resolution : Nat}
    {calls : List (Nat × OracleCall)}
    (h : construct signers threshold resolution >>= (calls.foldlM fun s c => c.2.exec c.1 s) =
      .ok s) : s.Reachable := by
  obtain ⟨deployed, hdeploy, hcalls⟩ := Fallible.bind_ok h
  exact ⟨signers, threshold, resolution, deployed, hdeploy,
    Fallible.foldlM_rel (fun _ => .refl) (fun _ _ _ => .trans)
      (fun _ c _ _ hstep => .single ⟨c.1, c.2, hstep⟩) hcalls⟩

namespace Sample

/-- Two signers price a mapped feed; another feed is purged and one signer removed. -/
def calls : List (Nat × OracleCall) :=
  [(900, .registerFeed "BTC"), (900, .addFeed "XLM" (.other "XLM")),
    (1_000, .submitPrice 1 "XLM" 100 999_000), (1_000, .submitPrice 2 "XLM" 101 1_000_000),
    (1_010, .purgeFeed "BTC"), (1_020, .removeSigner 2)]

end Sample

/-- The removed signer is no longer among the sources of the stored price. -/
theorem oracle_storage_invariant_sample :
    ∃ s : Storage, s.Reachable ∧ s.currentAggregate "XLM" = some ⟨100, 999_000, 1_020_000⟩ ∧
      s.sources "XLM" = [1] ∧ s.feeds.count = 1 ∧ s.loadSigners.Nodup := by
  obtain ⟨s, hrun, hagg, hsrc, hcount⟩ : ∃ s : Storage,
      construct [1, 2] 1 300 >>= (Sample.calls.foldlM fun s c => c.2.exec c.1 s) = .ok s ∧
      s.currentAggregate "XLM" = some ⟨100, 999_000, 1_020_000⟩ ∧ s.sources "XLM" = [1] ∧
      s.feeds.count = 1 :=
    ⟨_, rfl, by decide +kernel, by decide +kernel, by decide +kernel⟩
  have hreach : s.Reachable := Storage.reachable_of_calls hrun
  obtain ⟨-, -, -, -, -, -, hstaff, -⟩ := oracle_storage_invariant hreach
  exact ⟨s, hreach, hagg, hsrc, hcount, hstaff.1⟩

end Lending.XoxnoOracle
