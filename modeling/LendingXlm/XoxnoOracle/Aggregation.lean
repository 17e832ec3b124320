import LendingXlm.XoxnoOracle.Storage
import LendingXlm.Lib.OrderStatistic

/-!
# Submission checks and the median aggregate

`xoxno-oracle/src/aggregation.rs`.

- **The cluster** (`Storage.clusteredSubmissions`): the registered signers' latest submissions that
  pass the age filter and lie in the skew window. `mem_clusteredSubmissions` says which those are,
  `recent_mem_cluster` which submissions no other signer can push out.
- **The aggregate** (`Storage.formAggregate`): `formAggregate_some_iff` lists what a formed
  aggregate has passed; `aggregate_robust` is what that buys against faulty signers.
-/

namespace Lending.XoxnoOracle

/-- What a recompute does to the stored aggregate when it cannot form a new one. -/
inductive QuorumMiss where
  | clear | retain
  deriving DecidableEq, Repr

/-! ## Prices of a cluster -/

/-- Whether `highest * BPS ≤ lowest * (BPS + spread_bps)`; an overflowing product counts as
outside. -/
def withinSpread (lowest highest : Int) (spreadBps : Nat) : Bool :=
  match I128.checkedMul highest bps, I128.checkedMul lowest (bps + spreadBps) with
  | some scaledHighest, some scaledLowest => scaledHighest ≤ scaledLowest
  | _, _ => false

def sortedCopy (prices : List Int) : List Int := prices.insertionSort (· ≤ ·)

/-- The lower median. The index of an empty cluster underflows. -/
def medianOf (prices : List Int) : Result Int :=
  orThrow (sortedCopy prices)[(prices.length - 1) / 2]? .arithmeticOverflow

namespace Storage

/-! ## Checks of a submission -/

def requireNotFuture (now packageTimestamp : Nat) : Result Unit :=
  require (packageTimestamp / msPerSecond ≤ U64.saturatingAdd now maxFutureSkewSeconds)
    .futureTimestamp

def requireFreshSubmission (s : Storage) (now packageTimestamp : Nat) : Result Unit :=
  require (now - packageTimestamp / msPerSecond ≤ s.loadMaxSubmissionAge) .staleSubmission

def requireMonotonicPackage (s : Storage) (feedId : FeedId) (signer : Address)
    (packageTimestamp : Nat) : Result Unit :=
  match s.loadSubmission feedId signer with
  | none => return ()
  | some prev => require (prev.packageTimestamp ≤ packageTimestamp) .staleSubmission

def storeSubmission (s : Storage) (feedId : FeedId) (signer : Address) (price : Int)
    (packageTimestamp : Nat) : Storage :=
  (s.recordSignerFeed signer feedId).storeSubmissionRecord feedId signer price packageTimestamp

/-! ## The aggregate -/

/-- The submissions of registered signers that pass the age filter. Each is kept with its signer,
which only the history variable uses. -/
def keptSubmissions (s : Storage) (now : Nat) (feedId : FeedId) :
    List (Address × SignerSubmission) :=
  s.loadSigners.filterMap fun signer =>
    match s.loadSubmission feedId signer with
    | none => none
    | some submission =>
      if s.loadMaxSubmissionAge < now - submission.packageTimestamp / msPerSecond then none
      else some (signer, submission)

/-- The newest kept timestamp, clamped to ledger time. -/
def newestTs (s : Storage) (now : Nat) (feedId : FeedId) : Nat :=
  min ((s.keptSubmissions now feedId).foldl (fun newest e => max newest e.2.packageTimestamp) 0)
    (U64.saturatingMul now msPerSecond)

def clusteredSubmissions (s : Storage) (now : Nat) (feedId : FeedId) :
    List (Address × SignerSubmission) :=
  (s.keptSubmissions now feedId).filter fun e =>
    s.newestTs now feedId - e.2.packageTimestamp ≤
      U64.saturatingMul s.loadMaxRelativeSkew msPerSecond

/-- The aggregate a recompute stores; `none` on a quorum miss. -/
def formAggregate (s : Storage) (now : Nat) (feedId : FeedId) :
    Result (Option RedStonePriceData) := do
  let threshold := s.loadThreshold
  if (s.keptSubmissions now feedId).length < threshold then
    return none
  let clustered := s.clusteredSubmissions now feedId
  let prices := clustered.map (·.2.price)
  let oldestPackageTimestamp :=
    (clustered.map (·.2.packageTimestamp)).foldl min u64Max
  let lowest := prices.foldl min i128Max
  let highest := prices.foldl max i128Min
  if clustered.length < threshold then
    return none
  let spreadFreeCluster :=
    U32.saturatingAdd (U32.saturatingMul (s.loadSigners.length - threshold) 2) 1
  if clustered.length < spreadFreeCluster ∧
      withinSpread lowest highest s.loadMaxClusterSpreadBps = false then
    return none
  let median ← medianOf prices
  require (now * msPerSecond ≤ u64Max) .arithmeticOverflow
  return some
    { price := (median % 2 ^ 128).toNat
      packageTimestamp := oldestPackageTimestamp
      writeTimestamp := now * msPerSecond }

def applyQuorumMiss (s : Storage) (feedId : FeedId) (onMiss : QuorumMiss) : Storage :=
  match onMiss with
  | .clear => s.removeAggregate feedId
  | .retain => s

/-- Appends to the feed's history, or overwrites the last entry within one resolution period. -/
def pushHistory (s : Storage) (feedId : FeedId) (aggregate : RedStonePriceData) : Storage :=
  let history := (s.loadHistory feedId).getD []
  let resolutionMs := s.loadResolution * msPerSecond
  match history.getLast? with
  | some last =>
    if aggregate.writeTimestamp < U64.saturatingAdd last.writeTimestamp resolutionMs then
      s.storeHistory feedId (history.dropLast ++ [aggregate])
    else if maxHistoryLen ≤ history.length then
      s.storeHistory feedId (history.tail ++ [aggregate])
    else s.storeHistory feedId (history ++ [aggregate])
  | none => s.storeHistory feedId [aggregate]

def recomputeAggregate (s : Storage) (now : Nat) (feedId : FeedId) (onMiss : QuorumMiss) :
    Result Storage := do
  match ← s.formAggregate now feedId with
  | none => return s.applyQuorumMiss feedId onMiss
  | some aggregate =>
    let sources := (s.clusteredSubmissions now feedId).map (·.1)
    return (s.storeAggregate feedId aggregate sources).pushHistory feedId aggregate

/-! ## Which submissions are clustered -/

variable {s : Storage} {now : Nat} {feedId : FeedId} {e : Address × SignerSubmission}

theorem mem_keptSubmissions :
    e ∈ s.keptSubmissions now feedId ↔ e.1 ∈ s.loadSigners ∧
      s.loadSubmission feedId e.1 = some e.2 ∧
      now - e.2.packageTimestamp / msPerSecond ≤ s.loadMaxSubmissionAge := by
  obtain ⟨signer, submission⟩ := e
  unfold keptSubmissions
  rw [List.mem_filterMap]
  constructor
  · rintro ⟨signer', hmem, h⟩
    cases hload : s.loadSubmission feedId signer' with
    | none => simp [hload] at h
    | some submission' =>
      simp only [hload, Option.ite_none_left_eq_some, Option.some.injEq, Prod.mk.injEq] at h
      obtain ⟨hage, rfl, rfl⟩ := h
      exact ⟨hmem, hload, not_lt.mp hage⟩
  · rintro ⟨hmem, hload, hage⟩
    exact ⟨signer, hmem, by simp [hload, hage]⟩

theorem mem_clusteredSubmissions :
    e ∈ s.clusteredSubmissions now feedId ↔ e ∈ s.keptSubmissions now feedId ∧
      s.newestTs now feedId - e.2.packageTimestamp ≤
        U64.saturatingMul s.loadMaxRelativeSkew msPerSecond := by
  simp [clusteredSubmissions]

/-- A clustered submission is the latest one of a registered signer. -/
theorem loadSubmission_of_clustered (he : e ∈ s.clusteredSubmissions now feedId) :
    e.1 ∈ s.loadSigners ∧ s.loadSubmission feedId e.1 = some e.2 := by
  obtain ⟨hmem, hload, -⟩ := mem_keptSubmissions.mp (mem_clusteredSubmissions.mp he).1
  exact ⟨hmem, hload⟩

/-- The signer's submission is no more than the effective relative skew before ledger time. -/
def Recent (s : Storage) (now : Nat) (feedId : FeedId) (signer : Address) : Prop :=
  ∃ submission ∈ s.loadSubmission feedId signer,
    now * msPerSecond ≤ submission.packageTimestamp + s.loadMaxRelativeSkew * msPerSecond

instance : DecidablePred (s.Recent now feedId) := fun signer =>
  match h : s.loadSubmission feedId signer with
  | none => isFalse fun ⟨_, hmem, _⟩ => by simp [h] at hmem
  | some submission =>
    decidable_of_iff
      (now * msPerSecond ≤ submission.packageTimestamp + s.loadMaxRelativeSkew * msPerSecond)
      (by simp [Recent, h])

/-- No other submission can push a recent one out of the cluster: the window's anchor never lies
past ledger time. -/
theorem recent_mem_cluster {signer : Address} {submission : SignerSubmission}
    (hsigner : signer ∈ s.loadSigners)
    (hload : s.loadSubmission feedId signer = some submission)
    (hrecent : now * msPerSecond ≤
      submission.packageTimestamp + s.loadMaxRelativeSkew * msPerSecond) :
    (signer, submission) ∈ s.clusteredSubmissions now feedId := by
  have hskew : s.loadMaxRelativeSkew ≤ s.loadMaxSubmissionAge := min_le_right _ _
  have hsec : (0 : Nat) < msPerSecond := by decide
  refine mem_clusteredSubmissions.mpr ⟨mem_keptSubmissions.mpr ⟨hsigner, hload, ?_⟩, ?_⟩
  · have hage : now ≤ submission.packageTimestamp / msPerSecond + s.loadMaxRelativeSkew := by
      rw [← Nat.add_mul_div_right _ _ hsec, Nat.le_div_iff_mul_le hsec]
      exact hrecent
    show now - submission.packageTimestamp / msPerSecond ≤ _
    omega
  · have hnewest : s.newestTs now feedId ≤ U64.saturatingMul now msPerSecond := min_le_right _ _
    unfold U64.saturatingMul at hnewest ⊢
    show s.newestTs now feedId - submission.packageTimestamp ≤ _
    omega

/-- There are at least as many clustered submissions as signers with a recent one. -/
theorem countP_recent_le_cluster :
    s.loadSigners.countP (s.Recent now feedId) ≤ (s.clusteredSubmissions now feedId).length := by
  unfold clusteredSubmissions keptSubmissions
  rw [List.filter_filterMap, List.length_filterMap_eq_countP]
  refine List.countP_mono_left fun signer hmem hrecent => ?_
  obtain ⟨submission, hload, hts⟩ := of_decide_eq_true hrecent
  obtain ⟨hkept, hwindow⟩ := mem_clusteredSubmissions.mp (recent_mem_cluster hmem hload hts)
  obtain ⟨-, -, hage⟩ := mem_keptSubmissions.mp hkept
  have hload' : s.loadSubmission feedId signer = some submission := hload
  have hage' : ¬ s.loadMaxSubmissionAge < now - submission.packageTimestamp / msPerSecond :=
    not_lt.mpr hage
  simpa [hload', hage'] using hwindow

/-! ## What a formed aggregate has passed -/

theorem pushHistory_eq (s : Storage) (feedId : FeedId) (aggregate : RedStonePriceData) :
    ∃ history, s.pushHistory feedId aggregate = { s with history } := by
  unfold pushHistory
  dsimp only
  split
  · split
    · exact ⟨_, rfl⟩
    · split <;> exact ⟨_, rfl⟩
  · exact ⟨_, rfl⟩

theorem formAggregate_some_iff {aggregate : RedStonePriceData} :
    s.formAggregate now feedId = .ok (some aggregate) ↔
      let clustered := s.clusteredSubmissions now feedId
      let prices := clustered.map (·.2.price)
      s.loadThreshold ≤ clustered.length ∧
      (clustered.length < U32.saturatingAdd
          (U32.saturatingMul (s.loadSigners.length - s.loadThreshold) 2) 1 →
        withinSpread (prices.foldl min i128Max) (prices.foldl max i128Min)
          s.loadMaxClusterSpreadBps = true) ∧
      ∃ median, medianOf prices = .ok median ∧ now * msPerSecond ≤ u64Max ∧
        aggregate = ⟨(median % 2 ^ 128).toNat,
          (clustered.map (·.2.packageTimestamp)).foldl min u64Max, now * msPerSecond⟩ := by
  have hle : (s.clusteredSubmissions now feedId).length ≤
      (s.keptSubmissions now feedId).length := List.length_filter_le _ _
  unfold formAggregate
  dsimp only
  split
  · rename_i hkept
    simp
    omega
  · split
    · simp
      omega
    · split
      · rename_i hquorum hspread
        simp [hspread]
      · rename_i hkept hquorum hspread
        rw [not_and, Bool.not_eq_false] at hspread
        simp only [Fallible.bind_ok_iff, Fallible.pure_ok_iff, Fallible.require_ok_iff,
          Option.some.injEq]
        constructor
        · rintro ⟨median, hmedian, -, hnow, rfl⟩
          exact ⟨not_lt.mp hquorum, hspread, median, hmedian, hnow, rfl⟩
        · rintro ⟨-, -, median, hmedian, hnow, rfl⟩
          exact ⟨median, hmedian, (), hnow, rfl⟩

end Storage

/-! ## The median -/

section Median

variable {prices : List Int} {median : Int}

theorem sortedCopy_sorted : (sortedCopy prices).Pairwise (· ≤ ·) :=
  List.pairwise_insertionSort _ _

theorem sortedCopy_perm : (sortedCopy prices).Perm prices := List.perm_insertionSort _ _

theorem medianOf_ok_iff : medianOf prices = .ok median ↔
    (sortedCopy prices)[(prices.length - 1) / 2]? = some median :=
  Fallible.orThrow_ok_iff

theorem medianOf_mem (h : medianOf prices = .ok median) : median ∈ prices :=
  sortedCopy_perm.mem_iff.mp (List.mem_of_getElem? (medianOf_ok_iff.mp h))

theorem medianOf_total (h : 0 < prices.length) : ∃ median, medianOf prices = .ok median := by
  have hlt : (prices.length - 1) / 2 < (sortedCopy prices).length := by
    rw [sortedCopy_perm.length_eq]
    omega
  exact ⟨_, medianOf_ok_iff.mpr (List.getElem?_eq_getElem hlt)⟩

end Median

theorem withinSpread_iff {lowest highest : Int} {spreadBps : Nat}
    (h : withinSpread lowest highest spreadBps = true) :
    highest * bps ≤ lowest * (bps + spreadBps) := by
  unfold withinSpread at h
  split at h
  · rename_i scaledHighest scaledLowest hhigh hlow
    obtain ⟨-, rfl⟩ := I128.checkedMul_some.mp hhigh
    obtain ⟨-, rfl⟩ := I128.checkedMul_some.mp hlow
    exact of_decide_eq_true h
  · cases h

/-! ## Faulty signers -/

/-- The values a submission can hold: a positive `i128` price and a `u64` timestamp. -/
structure SignerSubmission.Valid (submission : SignerSubmission) : Prop where
  price_pos : 0 < submission.price
  price_le : submission.price ≤ i128Max
  timestamp_le : submission.packageTimestamp ≤ u64Max

section Robust

variable {s : Storage} {now : Nat} {feedId : FeedId} {aggregate : RedStonePriceData}

/-- The price of an aggregate over valid submissions is the median itself: the cast to `u128` keeps
a positive price. -/
theorem aggregate_price {clustered : List (Address × SignerSubmission)} {median : Int}
    (hvalid : ∀ e ∈ clustered, e.2.Valid)
    (hmedian : medianOf (clustered.map (·.2.price)) = .ok median) :
    ((median % 2 ^ 128).toNat : Int) = median := by
  obtain ⟨e, he, rfl⟩ := List.mem_map.mp (medianOf_mem hmedian)
  have hpos := (hvalid e he).price_pos
  have hlt : e.2.price < 2 ^ 128 := lt_of_le_of_lt (hvalid e he).price_le (by decide)
  rw [Int.emod_eq_of_lt hpos.le hlt, Int.toNat_of_nonneg hpos.le]

theorem oldest_isLeast {clustered : List (Address × SignerSubmission)}
    (hvalid : ∀ e ∈ clustered, e.2.Valid) (hne : 0 < clustered.length) :
    IsLeast {ts | ∃ e ∈ clustered, e.2.packageTimestamp = ts}
      ((clustered.map (·.2.packageTimestamp)).foldl min u64Max) := by
  have hmap : clustered.map (·.2.packageTimestamp) ≠ [] := by
    rw [Ne, List.map_eq_nil_iff]
    exact List.ne_nil_of_length_pos hne
  obtain ⟨e, he, hmin⟩ := List.mem_map.mp (List.min_mem hmap)
  rw [List.foldl_min_eq_min hmap, ← hmin, min_eq_right (hvalid e he).timestamp_le]
  refine ⟨⟨e, he, rfl⟩, ?_⟩
  rintro _ ⟨e', he', rfl⟩
  rw [hmin]
  exact List.min_le_of_mem (List.mem_map_of_mem he')

/-- In a cluster that passed the spread check any two prices are within the spread. -/
theorem spread_of_withinSpread {prices : List Int} {spreadBps : Nat} {p q : Int}
    (h : withinSpread (prices.foldl min i128Max) (prices.foldl max i128Min) spreadBps = true)
    (hp : p ∈ prices) (hq : q ∈ prices) : p * bps ≤ q * (bps + spreadBps) := by
  have hne : prices ≠ [] := List.ne_nil_of_mem hp
  have hhigh : p ≤ prices.foldl max i128Min := by
    rw [List.foldl_max_eq_max hne]
    exact (List.le_max_of_mem hp).trans (le_max_right _ _)
  have hlow : prices.foldl min i128Max ≤ q := by
    rw [List.foldl_min_eq_min hne]
    exact (min_le_right _ _).trans (List.min_le_of_mem hq)
  calc p * bps ≤ prices.foldl max i128Min * bps := mul_le_mul_of_nonneg_right hhigh bps_pos.le
    _ ≤ prices.foldl min i128Max * (bps + spreadBps) := withinSpread_iff h
    _ ≤ q * (bps + spreadBps) :=
        mul_le_mul_of_nonneg_right hlow (add_nonneg bps_pos.le (Int.natCast_nonneg _))

/-- With at least `2 * f + 1` clustered prices and at most `f` faulty ones, the lower median has an
honest price on either side. -/
theorem median_between_honest {clustered : List (Address × SignerSubmission)} {median : Int}
    {faulty : Address → Bool} {f : Nat}
    (hmedian : medianOf (clustered.map (·.2.price)) = .ok median)
    (hlen : 2 * f + 1 ≤ clustered.length)
    (hfaulty : clustered.countP (fun e => faulty e.1) ≤ f) :
    (∃ e ∈ clustered, faulty e.1 = false ∧ e.2.price ≤ median) ∧
      ∃ e ∈ clustered, faulty e.1 = false ∧ median ≤ e.2.price := by
  have hat := medianOf_ok_iff.mp hmedian
  rw [List.length_map] at hat
  constructor
  · exact OrderStatistic.exists_good_le sortedCopy_sorted sortedCopy_perm hat
      (hfaulty.trans (by omega))
  · exact OrderStatistic.exists_good_ge sortedCopy_sorted sortedCopy_perm hat (by omega)

/-- The aggregate that was formed is the one a recompute stores. -/
theorem recomputeAggregate_stores (h : s.formAggregate now feedId = .ok (some aggregate))
    (onMiss : QuorumMiss) : ∃ s', s.recomputeAggregate now feedId onMiss = .ok s' ∧
      s'.currentAggregate feedId = some aggregate := by
  obtain ⟨history, hpush⟩ := (s.storeAggregate feedId aggregate
    ((s.clusteredSubmissions now feedId).map (·.1))).pushHistory_eq feedId aggregate
  refine ⟨_, by rw [Storage.recomputeAggregate, h]; exact congrArg Except.ok hpush, ?_⟩
  exact Function.update_self ..

/-- Conversely, what is stored after a recompute is what it formed, or, where it formed nothing and
was told to retain the old price, that one. -/
theorem recomputeAggregate_stored {s' : Storage} {onMiss : QuorumMiss}
    (h : s.recomputeAggregate now feedId onMiss = .ok s')
    (hstored : s'.currentAggregate feedId = some aggregate) :
    s.formAggregate now feedId = .ok (some aggregate) ∨
      s.formAggregate now feedId = .ok none ∧ onMiss = .retain ∧ s' = s := by
  unfold Storage.recomputeAggregate at h
  obtain ⟨formed, hform, h⟩ := Fallible.bind_ok h
  cases formed with
  | none =>
    obtain rfl := Fallible.pure_ok_iff.mp h
    cases onMiss with
    | clear =>
      have hgone : (s.removeAggregate feedId).currentAggregate feedId = none :=
        Function.update_self ..
      exact absurd (hgone.symm.trans hstored) (by simp)
    | retain => exact .inr ⟨hform, rfl, rfl⟩
  | some new =>
    obtain rfl := Fallible.pure_ok_iff.mp h
    obtain ⟨history, hpush⟩ := (s.storeAggregate feedId new
      ((s.clusteredSubmissions now feedId).map (·.1))).pushHistory_eq feedId new
    rw [hpush] at hstored
    have hnew : (s.storeAggregate feedId new
        ((s.clusteredSubmissions now feedId).map (·.1))).currentAggregate feedId = some new :=
      Function.update_self ..
    exact .inl (hnew.symm.trans hstored ▸ hform)

/-- The saturating bound is the exact one for any cluster that can be stored. -/
theorem lt_spreadFree_iff {m f : Nat} (hm : m < u32Max) :
    m < U32.saturatingAdd (U32.saturatingMul f 2) 1 ↔ m < 2 * f + 1 := by
  unfold U32.saturatingAdd U32.saturatingMul
  omega

/-- **Robustness to faulty signers.** `n` signers, threshold `t`, and `f = n - t` of them allowed
to be faulty. Whatever a recompute stores, other than the price it was told to retain, was formed
from a cluster. -/
theorem aggregate_robust (s : Storage) (now : Nat) (feedId : FeedId) (faulty : Address → Bool)
    (hn : s.loadSigners.length < u32Max) (ht : 1 ≤ s.loadThreshold)
    (hvalid : ∀ signer submission, s.loadSubmission feedId signer = some submission →
      submission.Valid) :
    let t := s.loadThreshold
    let f := s.loadSigners.length - t
    let clustered := s.clusteredSubmissions now feedId
    (∀ onMiss s' aggregate, s.recomputeAggregate now feedId onMiss = .ok s' →
      s'.currentAggregate feedId = some aggregate →
      s.formAggregate now feedId = .ok (some aggregate) ∨
        s.formAggregate now feedId = .ok none ∧ onMiss = .retain ∧ s' = s) ∧
    (∀ aggregate, s.formAggregate now feedId = .ok (some aggregate) →
      t ≤ clustered.length ∧
      (∀ e ∈ clustered,
        now - e.2.packageTimestamp / msPerSecond ≤ s.loadMaxSubmissionAge) ∧
      IsLeast {ts | ∃ e ∈ clustered, e.2.packageTimestamp = ts} aggregate.packageTimestamp ∧
      (2 * f + 1 ≤ clustered.length → clustered.countP (fun e => faulty e.1) ≤ f →
        (∃ e ∈ clustered, faulty e.1 = false ∧ e.2.price ≤ aggregate.price) ∧
        ∃ e ∈ clustered, faulty e.1 = false ∧ aggregate.price ≤ e.2.price) ∧
      (clustered.length < 2 * f + 1 →
        (∀ e ∈ clustered, ∀ e' ∈ clustered,
          e.2.price * bps ≤ e'.2.price * (bps + s.loadMaxClusterSpreadBps)) ∧
        ∀ e ∈ clustered,
          aggregate.price * bps ≤ e.2.price * (bps + s.loadMaxClusterSpreadBps) ∧
          e.2.price * bps ≤ aggregate.price * (bps + s.loadMaxClusterSpreadBps)) ∧
      ∀ onMiss, ∃ s', s.recomputeAggregate now feedId onMiss = .ok s' ∧
        s'.currentAggregate feedId = some aggregate) ∧
    (∀ signer ∈ s.loadSigners, ∀ submission,
      s.loadSubmission feedId signer = some submission →
      now * msPerSecond ≤ submission.packageTimestamp + s.loadMaxRelativeSkew * msPerSecond →
      (signer, submission) ∈ clustered) ∧
    (now * msPerSecond ≤ u64Max → 2 * f + 1 ≤ t →
      t ≤ s.loadSigners.countP (fun signer => !faulty signer && s.Recent now feedId signer) →
      ∃ aggregate, s.formAggregate now feedId = .ok (some aggregate)) := by
  intro t f clustered
  have hload : ∀ e ∈ clustered, e.2.Valid := fun e he =>
    hvalid e.1 e.2 (Storage.loadSubmission_of_clustered he).2
  refine ⟨fun _ _ _ => recomputeAggregate_stored, fun aggregate hform => ?_,
    fun signer hsigner submission hsub hrecent => Storage.recent_mem_cluster hsigner hsub hrecent,
    fun hnow htf hhonest => ?_⟩
  · obtain ⟨hquorum, hspread, median, hmedian, -, rfl⟩ := Storage.formAggregate_some_iff.mp hform
    have hprice := aggregate_price hload hmedian
    refine ⟨hquorum, fun e he => ?_, oldest_isLeast hload (ht.trans hquorum), fun hlen hbad => ?_,
      fun hlen => ?_, recomputeAggregate_stores hform⟩
    · exact (Storage.mem_keptSubmissions.mp (Storage.mem_clusteredSubmissions.mp he).1).2.2
    · dsimp only
      rw [hprice]
      exact median_between_honest hmedian hlen hbad
    · -- A cluster is never larger than the signer set, so the saturated bound is the exact one.
      have hcl : clustered.length ≤ s.loadSigners.length :=
        (List.length_filter_le _ _).trans (List.length_filterMap_le _ _)
      have hsmall := hspread ((lt_spreadFree_iff (hcl.trans_lt hn)).mpr hlen)
      have hmem : median ∈ clustered.map (·.2.price) := medianOf_mem hmedian
      dsimp only
      rw [hprice]
      refine ⟨fun e he e' he' => ?_, fun e he => ⟨?_, ?_⟩⟩
      · exact spread_of_withinSpread hsmall (List.mem_map_of_mem he) (List.mem_map_of_mem he')
      · exact spread_of_withinSpread hsmall hmem (List.mem_map_of_mem he)
      · exact spread_of_withinSpread hsmall (List.mem_map_of_mem he) hmem
  · have hcount : t ≤ clustered.length := by
      refine (hhonest.trans (List.countP_mono_left fun signer _ h => ?_)).trans
        Storage.countP_recent_le_cluster
      exact (Bool.and_eq_true_iff.mp h).2
    have hlen : 0 < (clustered.map (·.2.price)).length := by
      rw [List.length_map]
      omega
    obtain ⟨median, hmedian⟩ := medianOf_total hlen
    refine ⟨_, Storage.formAggregate_some_iff.mpr ⟨hcount, fun hlt => ?_, median, hmedian, hnow,
      rfl⟩⟩
    have hcl : clustered.length ≤ s.loadSigners.length :=
      (List.length_filter_le _ _).trans (List.length_filterMap_le _ _)
    exact absurd ((lt_spreadFree_iff (hcl.trans_lt hn)).mp hlt) (not_lt.mpr (htf.trans hcount))

end Robust

namespace Sample

/-- Four signers with threshold three; the fourth one is a thousand times off. -/
def quorum : Storage :=
  { Storage.empty with
    signers := some [1, 2, 3, 4]
    threshold := some 3
    latestSubmission := fun _ signer => match signer with
      | 1 => some ⟨102, 999_000⟩
      | 2 => some ⟨100, 1_000_000⟩
      | 3 => some ⟨101, 998_500⟩
      | 4 => some ⟨100_000, 1_060_000⟩
      | _ => none }

theorem quorum_valid (feedId : FeedId) (signer : Address) (submission : SignerSubmission)
    (h : quorum.loadSubmission feedId signer = some submission) : submission.Valid := by
  simp only [quorum, Storage.loadSubmission] at h
  split at h <;> cases h <;> exact ⟨by decide, by decide, by decide⟩

end Sample

theorem aggregate_robust_sample :
    (∃ aggregate, Sample.quorum.formAggregate 1_000 "XLM" = .ok (some aggregate)) ∧
    Sample.quorum.formAggregate 1_000 "XLM" = .ok (some ⟨101, 998_500, 1_000_000⟩) ∧
    ∃ e ∈ Sample.quorum.clusteredSubmissions 1_000 "XLM", (e.1 == 4) = false ∧
      e.2.price ≤ (101 : Nat) := by
  have hrobust := aggregate_robust Sample.quorum 1_000 "XLM" (· == 4) (by decide) (by decide)
    (Sample.quorum_valid "XLM")
  have hform : Sample.quorum.formAggregate 1_000 "XLM" =
      .ok (some ⟨101, 998_500, 1_000_000⟩) := by decide +kernel
  refine ⟨hrobust.2.2.2 (by decide +kernel) (by decide +kernel) (by decide +kernel), hform, ?_⟩
  obtain ⟨-, -, -, hbetween, -⟩ := hrobust.2.1 _ hform
  exact (hbetween (by decide +kernel) (by decide +kernel)).1

end Lending.XoxnoOracle
