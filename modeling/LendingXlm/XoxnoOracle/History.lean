import LendingXlm.XoxnoOracle.Registry
import LendingXlm.Lib.SparseLog

/-!
# The price history of a feed

`push_history` and `read_price_history`. While the resolution stays, the history of a feed is a
sparse log (`Lib/SparseLog.lean`) of the aggregates written since it was last empty.

- **Runs of writes** (`HistoryRun`): aggregate writes of one feed at non-decreasing ledger times,
  with anything that leaves the feed's history and the resolution alone in between. Every call of
  the contract but `set_resolution` is such a stretch (`OracleCall.exec_historyRun`).
- **What is kept** (`HistoryRun.history_eq`, `history_exact`): a write less than a resolution after
  the one before replaces it, so the length counts the pauses between writes. Writes that never
  pause keep a single entry.
-/

namespace Lending.XoxnoOracle

open SparseLog

/-! ## `reads.rs` -/

namespace Storage

def readPriceDataForFeed (s : Storage) (now : Nat) (feedId : FeedId) : Result RedStonePriceData := do
  let aggregate ← orThrow (s.currentAggregate feedId) .noDataForFeed
  require (¬ s.loadMaxStaleSeconds < now - aggregate.writeTimestamp / msPerSecond) .staleData
  return aggregate

/-- Newest first. -/
def readPriceHistory (s : Storage) (now : Nat) (feedId : FeedId) (limit : Nat) :
    Result (List RedStonePriceData) := do
  let _ ← s.readPriceDataForFeed now feedId
  let history ← orThrow (s.loadHistory feedId) .noDataForFeed
  require (history ≠ []) .noDataForFeed
  return history.reverse.take (min limit history.length)

end Storage

variable {s s' t : Storage} {now now' : Nat} {feedId other : FeedId} {signer : Address}
  {writes writes' : List RedStonePriceData} {aggregate : RedStonePriceData}

/-! ## One write -/

/-- The configured resolution, in the milliseconds of the timestamps. -/
def Storage.resolutionMs (s : Storage) : Nat := s.loadResolution * msPerSecond

/-- What the storage has of a feed's history. -/
def Storage.kept (s : Storage) (feedId : FeedId) : List RedStonePriceData :=
  (s.loadHistory feedId).getD []

/-- Below `u64::MAX` the saturating sum of `push_history` compares like the exact one. -/
theorem lt_saturatingAdd_iff {a b c : Nat} (h : a < u64Max) :
    a < U64.saturatingAdd b c ↔ a < b + c := by
  unfold U64.saturatingAdd
  omega

/-- A push stores the sparse log with one more aggregate. -/
theorem Storage.pushHistory_record (h : aggregate.writeTimestamp < u64Max) :
    s.pushHistory feedId aggregate =
      s.storeHistory feedId (record RedStonePriceData.writeTimestamp s.resolutionMs maxHistoryLen
        (s.kept feedId) aggregate) := by
  unfold pushHistory record kept resolutionMs
  dsimp only
  cases ((s.loadHistory feedId).getD []).getLast? with
  | none => rfl
  | some last =>
    dsimp only
    simp only [lt_saturatingAdd_iff h]
    split
    · rfl
    · split <;> rfl

@[simp] theorem Storage.kept_storeHistory (history : List RedStonePriceData) :
    (s.storeHistory feedId history).kept feedId = history := by
  simp [kept, loadHistory, storeHistory]

theorem Storage.loadHistory_storeHistory_ne (hne : other ≠ feedId)
    (history : List RedStonePriceData) :
    (s.storeHistory feedId history).loadHistory other = s.loadHistory other :=
  Function.update_of_ne hne ..

theorem Storage.formAggregate_time (h : s.formAggregate now feedId = .ok (some aggregate)) :
    aggregate.writeTimestamp = now * msPerSecond ∧ aggregate.writeTimestamp < u64Max := by
  obtain ⟨-, -, median, -, hnow, rfl⟩ := Storage.formAggregate_some_iff.mp h
  refine ⟨rfl, lt_of_le_of_ne hnow ?_⟩
  simp only [msPerSecond, u64Max]
  omega

/-! ## Runs of writes -/

/-- One write to storage: what the writes of the feed's aggregate were before it and are after it,
oldest first and since the feed was last without history. -/
inductive HistoryStep (feedId : FeedId) (now : Nat) :
    List RedStonePriceData × Storage → List RedStonePriceData × Storage → Prop
  | beside {writes : List RedStonePriceData} {s s' : Storage}
      (hhistory : s'.loadHistory feedId = s.loadHistory feedId)
      (hresolution : s'.loadResolution = s.loadResolution) :
      HistoryStep feedId now (writes, s) (writes, s')
  | write {writes : List RedStonePriceData} {s s' : Storage} {onMiss : QuorumMiss}
      {aggregate : RedStonePriceData}
      (hform : s.formAggregate now feedId = .ok (some aggregate))
      (hrecompute : s.recomputeAggregate now feedId onMiss = .ok s') :
      HistoryStep feedId now (writes, s) (writes ++ [aggregate], s')
  | clear {writes : List RedStonePriceData} {s s' : Storage}
      (hhistory : s'.loadHistory feedId = none)
      (hresolution : s'.loadResolution = s.loadResolution) :
      HistoryStep feedId now (writes, s) ([], s')

/-- Storage at ledger time `now` after steps at non-decreasing times, the resolution staying, with
the aggregates of the feed written since it was last without history. -/
inductive HistoryRun (feedId : FeedId) : Nat → List RedStonePriceData → Storage → Prop
  | start {now : Nat} {s : Storage} (hhistory : s.loadHistory feedId = none) :
      HistoryRun feedId now [] s
  | step {now now' : Nat} {writes writes' : List RedStonePriceData} {s s' : Storage}
      (hrun : HistoryRun feedId now writes s) (htime : now ≤ now')
      (hstep : HistoryStep feedId now' (writes, s) (writes', s')) :
      HistoryRun feedId now' writes' s'

/-- What a recompute that forms an aggregate does to the histories. -/
theorem recomputeAggregate_formed {onMiss : QuorumMiss}
    (hform : s.formAggregate now feedId = .ok (some aggregate))
    (h : s.recomputeAggregate now feedId onMiss = .ok s') :
    s'.kept feedId = record RedStonePriceData.writeTimestamp s.resolutionMs maxHistoryLen
        (s.kept feedId) aggregate ∧
      s'.loadResolution = s.loadResolution ∧
      ∀ other ≠ feedId, s'.loadHistory other = s.loadHistory other := by
  unfold Storage.recomputeAggregate at h
  rw [hform, Fallible.ok_bind] at h
  obtain rfl := Fallible.pure_ok_iff.mp h
  rw [Storage.pushHistory_record (Storage.formAggregate_time hform).2]
  exact ⟨Storage.kept_storeHistory _, rfl,
    fun other hne => Storage.loadHistory_storeHistory_ne hne _⟩

theorem recomputeAggregate_missed {onMiss : QuorumMiss}
    (hform : s.formAggregate now feedId = .ok none)
    (h : s.recomputeAggregate now feedId onMiss = .ok s') :
    s'.loadResolution = s.loadResolution ∧ s'.history = s.history := by
  unfold Storage.recomputeAggregate at h
  rw [hform, Fallible.ok_bind] at h
  obtain rfl := Fallible.pure_ok_iff.mp h
  cases onMiss <;> exact ⟨rfl, rfl⟩

namespace HistoryRun

/-- **The history.** It is the sparse log of the writes; their timestamps are the ledger's. -/
theorem invariant (h : HistoryRun feedId now writes s) :
    s.kept feedId =
        lastN maxHistoryLen (survivors RedStonePriceData.writeTimestamp s.resolutionMs writes) ∧
      writes.Pairwise (fun a b => a.writeTimestamp ≤ b.writeTimestamp) ∧
      ∀ w ∈ writes, w.writeTimestamp ≤ now * msPerSecond := by
  induction h with
  | start hhistory =>
    refine ⟨?_, List.Pairwise.nil, fun w hw => by cases hw⟩
    rw [Storage.kept, hhistory]
    rfl
  | @step now now' writes _ _ _ hrun htime hstep ih =>
    obtain ⟨hkept, hsorted, htimes⟩ := ih
    have hlater : ∀ w ∈ writes, w.writeTimestamp ≤ now' * msPerSecond := fun w hw =>
      (htimes w hw).trans (Nat.mul_le_mul_right msPerSecond htime)
    cases hstep with
    | beside hhistory hresolution =>
      refine ⟨?_, hsorted, hlater⟩
      rw [Storage.kept, hhistory, Storage.resolutionMs, hresolution]
      exact hkept
    | write hform hrecompute =>
      obtain ⟨hrecord, hresolution, -⟩ := recomputeAggregate_formed hform hrecompute
      obtain ⟨hnow, -⟩ := Storage.formAggregate_time hform
      refine ⟨?_, ?_, ?_⟩
      · rw [hrecord, hkept, record_survivors (by decide), Storage.resolutionMs,
          Storage.resolutionMs, hresolution]
      · refine List.pairwise_append.mpr ⟨hsorted, List.pairwise_singleton _ _, ?_⟩
        intro a ha b hb
        rw [List.mem_singleton.mp hb, hnow]
        exact hlater a ha
      · intro w hw
        rcases List.mem_append.mp hw with hw | hw
        · exact hlater w hw
        · rw [List.mem_singleton.mp hw, hnow]
    | clear hhistory hresolution =>
      refine ⟨?_, List.Pairwise.nil, fun w hw => by cases hw⟩
      rw [Storage.kept, hhistory]
      rfl

end HistoryRun

/-! ## The calls of the contract -/

/-- Some writes account for the feed's history. -/
def Storage.Followed (s : Storage) (feedId : FeedId) (now : Nat) : Prop :=
  ∃ writes, HistoryRun feedId now writes s

namespace Storage.Followed

theorem later (h : s.Followed feedId now) (htime : now ≤ now') : s.Followed feedId now' := by
  obtain ⟨writes, hrun⟩ := h
  exact ⟨writes, hrun.step htime (.beside rfl rfl)⟩

theorem beside (h : s.Followed feedId now) (hhistory : s'.loadHistory feedId = s.loadHistory feedId)
    (hresolution : s'.loadResolution = s.loadResolution) : s'.Followed feedId now := by
  obtain ⟨writes, hrun⟩ := h
  exact ⟨writes, hrun.step le_rfl (.beside hhistory hresolution)⟩

theorem recompute {onMiss : QuorumMiss} {f : FeedId} (h : s.Followed feedId now)
    (hrecompute : s.recomputeAggregate now f onMiss = .ok s') : s'.Followed feedId now := by
  obtain ⟨formed, hform, -⟩ := Fallible.bind_ok hrecompute
  cases formed with
  | none =>
    obtain ⟨hresolution, hhistory⟩ := recomputeAggregate_missed hform hrecompute
    exact h.beside (congrFun hhistory feedId) hresolution
  | some aggregate =>
    by_cases hf : f = feedId
    · subst hf
      obtain ⟨writes, hrun⟩ := h
      exact ⟨writes ++ [aggregate], hrun.step le_rfl (.write hform hrecompute)⟩
    · obtain ⟨-, hresolution, hhistory⟩ := recomputeAggregate_formed hform hrecompute
      exact h.beside (hhistory feedId (Ne.symm hf)) hresolution

theorem clear (hhistory : s.loadHistory feedId = none) : s.Followed feedId now :=
  ⟨[], .start hhistory⟩

theorem storeSubmission {f : FeedId} {price : Int} {packageTimestamp : Nat}
    (h : s.Followed feedId now) :
    (s.storeSubmission f signer price packageTimestamp).Followed feedId now := by
  refine h.beside ?_ ?_ <;>
    · unfold Storage.storeSubmission recordSignerFeed
      split <;> rfl

theorem ensureKnownFeed {f : FeedId} (h : s.Followed feedId now)
    (hensure : s.ensureKnownFeed f = .ok s') : s'.Followed feedId now := by
  unfold Storage.ensureKnownFeed feedIndexInsert at hensure
  split at hensure
  · exact Fallible.pure_ok_iff.mp hensure ▸ h
  · simp only [Fallible.bind_ok_iff, Fallible.pure_ok_iff] at hensure
    obtain ⟨-, -, rfl⟩ := hensure
    exact h.beside rfl rfl

/-- Clearing a feed leaves it without history, and other feeds with theirs. -/
theorem clearFeedState {f : FeedId} (h : s.Followed feedId now)
    (hclear : s.clearFeedState f = .ok s') : s'.Followed feedId now := by
  have hloop : Dropped f s.loadSigners ((s.removeAggregate f).removeHistory f)
      (s.loadSigners.foldl (fun s signer =>
        (s.removeSubmission f signer).removeSignerFeed signer f)
        ((s.removeAggregate f).removeHistory f)) := dropped_foldl
  unfold Storage.clearFeedState feedIndexRemove at hclear
  simp only [Fallible.bind_ok_iff, Fallible.pure_ok_iff] at hclear
  obtain ⟨feeds, -, rfl⟩ := hclear
  obtain ⟨⟨subs, lists, hsame⟩, -, -, -⟩ := hloop
  by_cases hf : feedId = f
  · subst hf
    refine clear ?_
    rw [hsame]
    exact Function.update_self ..
  · refine h.beside ?_ ?_ <;> rw [hsame]
    · exact Function.update_of_ne hf ..
    · rfl

theorem clearAssetAndFeed {f : FeedId} {asset : ReflectorAsset} (h : s.Followed feedId now)
    (hclear : Admin.clearAssetAndFeed asset f s = .ok s') : s'.Followed feedId now := by
  obtain ⟨t, hremove, hclear⟩ := Fallible.bind_ok hclear
  simp only [assetIndexRemove, Fallible.bind_ok_iff, Fallible.pure_ok_iff] at hremove
  obtain ⟨assets, -, rfl⟩ := hremove
  refine clearFeedState ?_ hclear
  exact h.beside rfl rfl

end Storage.Followed

/-- Every call but `set_resolution` carries the history on. -/
theorem OracleCall.exec_followed {call : OracleCall} (hs : s.Followed feedId now)
    (htime : now ≤ now') (hcall : ∀ resolution, call ≠ .setResolution resolution)
    (h : call.exec now' s = .ok s') : s'.Followed feedId now' := by
  replace hs := hs.later htime
  cases call with
  | addSigner | setThreshold | setMaxStaleSeconds | setMaxSubmissionAgeSeconds
  | setMaxRelativeSkewSeconds | setMaxClusterSpreadBps =>
    obtain ⟨-, -, h⟩ := Fallible.bind_ok h
    exact Fallible.pure_ok_iff.mp h ▸ hs.beside rfl rfl
  | removeSigner signer =>
    obtain ⟨-, -, h⟩ := Fallible.bind_ok h
    obtain ⟨-, -, h⟩ := Fallible.bind_ok h
    obtain ⟨t, hloop, h⟩ := Fallible.bind_ok h
    rw [← Fallible.pure_ok_iff.mp h]
    have hkeep (ht : t.Followed feedId now') : (t.clearSignerFeeds signer).Followed feedId now' :=
      ht.beside rfl rfl
    refine hkeep ?_
    refine Fallible.foldlM_inv (P := fun t : Storage => t.Followed feedId now')
      (fun u f u' _ hu hstep => ?_) ?_ hloop
    · refine Storage.Followed.recompute ?_ hstep
      exact hu.beside rfl rfl
    · exact hs.beside rfl rfl
  | setResolution resolution => exact absurd rfl (hcall resolution)
  | recomputeFeeds feedIds =>
    obtain ⟨-, -, hloop⟩ := Fallible.bind_ok h
    exact Fallible.foldlM_inv (P := fun t : Storage => t.Followed feedId now')
      (fun _ _ _ _ hu hstep => hu.recompute hstep) hs hloop
  | registerFeed f =>
    obtain ⟨-, -, h⟩ := Fallible.bind_ok h
    exact hs.ensureKnownFeed h
  | addFeed f asset =>
    obtain ⟨-, -, h⟩ := Fallible.bind_ok h
    obtain ⟨-, -, h⟩ := Fallible.bind_ok h
    obtain ⟨t, hknown, h⟩ := Fallible.bind_ok h
    have ht : t.Followed feedId now' := by
      refine Storage.Followed.ensureKnownFeed ?_ hknown
      exact hs.beside rfl rfl
    simp only [Storage.assetIndexInsert, Fallible.bind_ok_iff, Fallible.pure_ok_iff] at h
    obtain ⟨-, -, rfl⟩ := h
    exact ht.beside rfl rfl
  | removeFeed asset =>
    obtain ⟨f, -, h⟩ := Fallible.bind_ok h
    exact hs.clearAssetAndFeed h
  | purgeFeed f =>
    obtain ⟨-, -, h⟩ := Fallible.bind_ok h
    cases howner : s.loadFeedOwner f with
    | some asset =>
      rw [howner] at h
      exact hs.clearAssetAndFeed h
    | none =>
      rw [howner] at h
      exact hs.clearFeedState h
  | submitPrice signer f price packageTimestamp =>
    change Submit.submitPrice .. = _ at h
    unfold Submit.submitPrice at h
    simp only [Fallible.bind_ok_iff] at h
    obtain ⟨-, -, -, -, -, -, -, -, -, -, -, -, h⟩ := h
    exact hs.storeSubmission.recompute h
  | submitPrices signer feedIds prices packageTimestamp =>
    change Submit.submitPrices .. = _ at h
    unfold Submit.submitPrices at h
    simp only [Fallible.bind_ok_iff] at h
    obtain ⟨-, -, -, -, -, -, -, -, -, -, -, -, hloop⟩ := h
    exact Fallible.foldlM_inv (P := fun t : Storage => t.Followed feedId now')
      (fun _ _ _ _ hu hstep => hu.storeSubmission.recompute hstep) hs hloop

/-! ## Bounds of the history -/

/-- **The history is a sparse log of the writes.** It is bounded, ends with the last write, and
its entries are at least a resolution apart. How many there are is how often the writes paused for
a resolution: writes that pause each time, and for two resolutions at most, keep the history as
long as the time they span allows; writes that never pause keep one entry. -/
theorem history_exact (h : HistoryRun feedId now writes s) :
    (s.kept feedId).length ≤ maxHistoryLen ∧
    (s.kept feedId).getLast? = writes.getLast? ∧
    (s.kept feedId).Pairwise (fun a b => a.writeTimestamp + s.resolutionMs ≤ b.writeTimestamp) ∧
    (writes ≠ [] → (s.kept feedId).length =
      min maxHistoryLen (1 + pauses RedStonePriceData.writeTimestamp s.resolutionMs writes)) ∧
    (∀ first last, writes.head? = some first → writes.getLast? = some last →
      writes.IsChain (fun a b => a.writeTimestamp + s.resolutionMs ≤ b.writeTimestamp ∧
        b.writeTimestamp ≤ a.writeTimestamp + 2 * s.resolutionMs) →
      min maxHistoryLen ((last.writeTimestamp - first.writeTimestamp) / (2 * s.resolutionMs)) ≤
        (s.kept feedId).length) ∧
    ∀ at_ limit prices, s.readPriceHistory at_ feedId limit = .ok prices →
      prices = (s.kept feedId).reverse.take limit := by
  obtain ⟨hkept, hsorted, -⟩ := h.invariant
  have hlength : writes ≠ [] → (s.kept feedId).length =
      min maxHistoryLen (1 + pauses RedStonePriceData.writeTimestamp s.resolutionMs writes) := by
    intro hne
    rw [hkept, length_lastN, length_survivors hne]
  refine ⟨?_, ?_, ?_, hlength, fun first last hfirst hlast hsteady => ?_,
    fun at_ limit prices hread => ?_⟩
  · rw [hkept, length_lastN]
    exact Nat.min_le_left _ _
  · rw [hkept, getLast?_lastN (by decide), getLast?_survivors]
  · rw [hkept]
    exact (survivors_spaced hsorted).sublist (List.drop_sublist _ _)
  · have hne : writes ≠ [] := by
      rintro rfl
      cases hfirst
    have hspan := span_le_pauses hsteady hfirst hlast
    have hcount : (last.writeTimestamp - first.writeTimestamp) / (2 * s.resolutionMs) ≤
        pauses RedStonePriceData.writeTimestamp s.resolutionMs writes :=
      Nat.div_le_of_le_mul (by rw [Nat.mul_comm]; omega)
    rw [hlength hne]
    omega
  · unfold Storage.readPriceHistory at hread
    simp only [Fallible.bind_ok_iff, Fallible.orThrow_ok_iff, Fallible.require_ok_iff,
      Fallible.pure_ok_iff] at hread
    obtain ⟨-, -, history, hload, -, -, rfl⟩ := hread
    rw [Storage.kept, hload, Option.getD_some, ← List.length_reverse, ← List.take_eq_take_min]

namespace Sample

/-- One signer has submitted once, at 1000 seconds; the resolution is ten seconds. -/
def submitted : Storage :=
  ({ Storage.empty with signers := some [1], threshold := some 1, resolution := some 10 }
    ).storeSubmission "XLM" 1 100 1_000_000

def entry (now : Nat) : RedStonePriceData := ⟨100, 1_000_000, now * msPerSecond⟩

/-- A feed whose price stays available can be written at any later times. -/
theorem written {now : Nat} {writes : List RedStonePriceData} {s : Storage} {times : List Nat}
    (hrun : HistoryRun "XLM" now writes s) (hresolution : s.loadResolution = 10)
    (hprice : ∀ t ∈ times, s.formAggregate t "XLM" = .ok (some (entry t)))
    (hsorted : (now :: times).IsChain (· ≤ ·)) :
    ∃ s', HistoryRun "XLM" ((now :: times).getLast (List.cons_ne_nil _ _))
        (writes ++ times.map entry) s' ∧ s'.loadResolution = 10 := by
  induction times generalizing now writes s with
  | nil => exact ⟨s, by rwa [List.map_nil, List.append_nil], hresolution⟩
  | cons t times ih =>
    obtain ⟨htime, hsorted⟩ := List.isChain_cons_cons.mp hsorted
    have hform := hprice t List.mem_cons_self
    obtain ⟨u, hrecompute⟩ : ∃ u, s.recomputeAggregate t "XLM" .retain = .ok u := by
      unfold Storage.recomputeAggregate
      rw [hform]
      exact ⟨_, rfl⟩
    have hnext := hrun.step htime (.write hform hrecompute)
    obtain ⟨agg, sources, history, rfl, -, -⟩ := recomputeAggregate_ok hrecompute
    -- The next prices do not depend on what was written.
    obtain ⟨s', hrun', h10⟩ := ih hnext hresolution
      (fun u hu => hprice u (List.mem_cons_of_mem t hu)) hsorted
    refine ⟨s', ?_, h10⟩
    rwa [List.append_assoc, List.singleton_append] at hrun'

end Sample

/-- Writes that come closer together than the resolution keep one entry, however long they go on:
here six of them, nine seconds apart, at a resolution of ten seconds. -/
theorem history_starves :
    let writes := [1_000, 1_009, 1_018, 1_027, 1_036, 1_045].map Sample.entry
    ∃ s : Storage, HistoryRun "XLM" 1_045 writes s ∧ s.loadResolution = 10 ∧
      writes.IsChain (fun a b => a.writeTimestamp ≤ b.writeTimestamp ∧
        b.writeTimestamp ≤ a.writeTimestamp + s.resolutionMs) ∧
      (s.kept "XLM").length = 1 ∧
      min maxHistoryLen ((1_045 - 1_000) / (2 * s.loadResolution)) = 2 := by
  obtain ⟨s, hrun, h10⟩ := Sample.written
    (.start rfl : HistoryRun "XLM" 1_000 [] Sample.submitted) rfl
    (show ∀ t ∈ [1_000, 1_009, 1_018, 1_027, 1_036, 1_045], _ by decide +kernel) (by decide)
  have hms : s.resolutionMs = 10_000 := by rw [Storage.resolutionMs, h10]; rfl
  refine ⟨s, hrun, h10, ?_, ?_, ?_⟩
  · rw [hms]
    decide
  · rw [hrun.invariant.1, hms]
    decide
  · rw [h10]
    decide

/-- A feed written at the pace of the resolution. -/
theorem history_exact_sample :
    ∃ s : Storage, s.kept "XLM" = [1_000, 1_010, 1_025].map Sample.entry ∧
      ∀ at_ limit prices, s.readPriceHistory at_ "XLM" limit = .ok prices →
        prices = ([1_025, 1_010, 1_000].map Sample.entry).take limit := by
  obtain ⟨s, hrun, h10⟩ := Sample.written
    (.start rfl : HistoryRun "XLM" 1_000 [] Sample.submitted) rfl
    (show ∀ t ∈ [1_000, 1_010, 1_022, 1_025], _ by decide +kernel) (by decide)
  have hms : s.resolutionMs = 10_000 := by rw [Storage.resolutionMs, h10]; rfl
  have hkept : s.kept "XLM" = [1_000, 1_010, 1_025].map Sample.entry := by
    rw [hrun.invariant.1, hms]
    decide
  obtain ⟨-, -, -, -, -, hread⟩ := history_exact hrun
  refine ⟨s, hkept, fun at_ limit prices h => ?_⟩
  rw [hread at_ limit prices h, hkept]
  rfl

end Lending.XoxnoOracle
