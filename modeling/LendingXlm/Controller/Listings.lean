import LendingXlm.Controller.Configuration
import LendingXlm.Controller.Delegates
import LendingXlm.Lib.Register

/-!
# Flags and their epochs

A listing's flags with its epoch are a versioned register (`ControllerStore.flagRegister`).
`ControllerCall.exec_move` says which call makes which write: a listing is created by
`add_asset_to_spoke` and removed by `remove_asset_from_spoke`, `edit_asset_in_spoke` and
`set_spoke_asset_flags` raise flags or leave the register alone, `relax_spoke_asset_flags`
overwrites them at the epoch it expects, and no other call touches it.
-/

namespace Lending

open Transaction Ctrl Config
open Register (Move Write)

variable {W : Type} {h : ControllerHost W} {timestamp : Nat}

/-- Paused, frozen and no-seize; set is above unset. -/
abbrev Flags := Bool × Bool × Bool

def ControllerStore.flagRegister (s : ControllerStore) (key : SpokeAssetKey) : Register Flags :=
  ⟨(s.spokeAssets.get? key).map flags, getSpokeFlagsEpoch s key⟩

/-- How many flags are unset. -/
def Flags.unset (f : Flags) : Nat :=
  (if f.1 then 0 else 1) + (if f.2.1 then 0 else 1) + (if f.2.2 then 0 else 1)

theorem Flags.unset_strictAnti : StrictAnti Flags.unset := by
  rintro ⟨p, f, n⟩ ⟨p', f', n'⟩ hlt
  rw [lt_iff_le_not_ge, Prod.mk_le_mk, Prod.mk_le_mk, Prod.mk_le_mk, Prod.mk_le_mk] at hlt
  revert p f n p' f' n'
  decide

theorem Flags.unset_le (f : Flags) : f.unset ≤ 3 := by
  obtain ⟨p, f, n⟩ := f
  revert p f n
  decide

theorem Config.requireFlagRatchet_ok {config : SpokeAssetConfig} {paused frozen noSeize : Bool}
    {u : Unit} (hok : requireFlagRatchet config paused frozen noSeize = .ok u) :
    flags config ≤ (paused, frozen, noSeize) := by
  obtain ⟨hp, hf, hn⟩ := Fallible.require_ok_iff.mp hok
  refine ⟨?_, ?_, ?_⟩
  · intro hc
    exact hp.resolve_right fun hnot => hnot hc
  · intro hc
    exact hf.resolve_right fun hnot => hnot hc
  · intro hc
    exact hn.resolve_right fun hnot => hnot hc

/-! ## The calls that leave the listings alone -/

/-- Listings and epochs are the same. -/
def Invocation.SameListings (s s' : Invocation W) : Prop :=
  s'.store.flagRegister = s.store.flagRegister

open Invocation

instance : Std.Refl (SameListings (W := W)) where
  refl _ := rfl

instance : IsTrans (Invocation W) SameListings where
  trans _ _ _ hst htu := htu.trans hst

theorem Invocation.Works.listings {s s' : Invocation W} (hs : Works timestamp s s') :
    SameListings s s' := by
  have hregister := congrArg ControllerStore.flagRegister hs.configuration
  exact hregister

theorem Ctrl.store_listings : Along SameListings (store : Ctrl W ControllerStore) :=
  .bind .get fun _ => .pure

theorem Ctrl.modifyStore_listings {f : ControllerStore → ControllerStore}
    (hf : ∀ s, (f s).flagRegister = s.flagRegister) :
    Along SameListings (modifyStore f : Ctrl W Unit) :=
  .modify fun s => hf s.store

/-- The listing a call is about. -/
def ControllerCall.listing : ControllerCall → Option SpokeAssetKey
  | addAssetToSpoke args => some ⟨args.spokeId, args.hubId, args.asset⟩
  | editAssetInSpoke args => some ⟨args.spokeId, args.hubId, args.asset⟩
  | setSpokeAssetFlags spokeId hubAsset _ _ _ => some ⟨spokeId, hubAsset⟩
  | relaxSpokeAssetFlags spokeId hubAsset _ _ _ _ => some ⟨spokeId, hubAsset⟩
  | removeAssetFromSpoke hubAsset spokeId => some ⟨spokeId, hubAsset⟩
  | _ => none

theorem ControllerCall.body_listings {call : ControllerCall} (hcall : call.listing = none) :
    Along SameListings (call.body h timestamp) := by
  cases hconf : call.isConfiguration with
  | false => exact (call.user_configuration h hconf).mono fun _ _ => Works.listings
  | true =>
  cases call with
  | setSwapAggregator | setPriceAggregator | setAccumulator | setPositionManager
  | setBlendPoolApproval => exact modifyStore_listings fun _ => rfl
  | setPositionLimits | setMinBorrowCollateralUsd =>
    exact .bind .lift fun _ => modifyStore_listings fun _ => rfl
  | createHub | addSpoke =>
    exact .bind (.bind store_listings fun _ => .bind .lift fun _ =>
      .bind (modifyStore_listings fun _ => rfl) fun _ => .pure) fun _ => .pure
  | removeSpoke =>
    exact .bind store_listings fun _ => .bind .lift fun _ => .bind .lift fun _ =>
      modifyStore_listings fun _ => rfl
  | setSpokeLiquidationCurve =>
    exact .bind .lift fun _ => .bind store_listings fun _ => .bind .lift fun _ =>
      modifyStore_listings fun _ => rfl
  | pause | unpause =>
    exact .bind store_listings fun _ => .bind .lift fun _ =>
      modifyStore_listings fun _ => rfl
  | addAssetToSpoke | editAssetInSpoke | setSpokeAssetFlags | relaxSpokeAssetFlags
  | removeAssetFromSpoke => cases hcall
  | _ => cases hconf

/-! ## The calls that write a listing -/

/-- One write of the register under `key`, and of no other. -/
structure ControllerStore.WritesListing (s s' : ControllerStore) (key : SpokeAssetKey) (w : Write) :
    Prop where
  move : Move (s.flagRegister key) w (s'.flagRegister key)
  frame : ∀ k ≠ key, s'.flagRegister k = s.flagRegister k

namespace ControllerStore

variable {s : ControllerStore} {key : SpokeAssetKey} {config stored : SpokeAssetConfig}

/-- The store with a listing written and its epoch moved on. -/
def writeListing (s : ControllerStore) (key : SpokeAssetKey) (config : SpokeAssetConfig) :
    ControllerStore :=
  { s with
    spokeAssets := s.spokeAssets.set key config
    spokeFlagsEpoch := s.spokeFlagsEpoch.set key (getSpokeFlagsEpoch s key + 1) }

theorem flagRegister_none (hget : s.spokeAssets.get? key = none) :
    s.flagRegister key = ⟨none, getSpokeFlagsEpoch s key⟩ := by
  rw [flagRegister, hget, Option.map_none]

theorem flagRegister_some (hget : s.spokeAssets.get? key = some stored) :
    s.flagRegister key = ⟨some (flags stored), getSpokeFlagsEpoch s key⟩ := by
  rw [flagRegister, hget, Option.map_some]

theorem writeListing_self (s : ControllerStore) (key : SpokeAssetKey)
    (config : SpokeAssetConfig) :
    (s.writeListing key config).flagRegister key =
      ⟨some (flags config), getSpokeFlagsEpoch s key + 1⟩ := by
  simp [flagRegister, writeListing, getSpokeFlagsEpoch]

theorem writeListing_ne {k : SpokeAssetKey} (hk : k ≠ key) :
    (s.writeListing key config).flagRegister k = s.flagRegister k := by
  simp [flagRegister, writeListing, getSpokeFlagsEpoch, SortedMap.get?_set_ne _ _ hk]

theorem writes_create (hget : s.spokeAssets.get? key = none) :
    s.WritesListing (s.writeListing key config) key .create := by
  refine ⟨?_, fun k hk => writeListing_ne hk⟩
  rw [flagRegister_none hget, writeListing_self]
  exact .create _ _

theorem writes_raise (hget : s.spokeAssets.get? key = some stored)
    (hlt : flags stored < flags config) :
    s.WritesListing (s.writeListing key config) key .raise := by
  refine ⟨?_, fun k hk => writeListing_ne hk⟩
  rw [flagRegister_some hget, writeListing_self]
  exact .raise _ hlt

theorem writes_overwrite (hget : s.spokeAssets.get? key = some stored) :
    s.WritesListing (s.writeListing key config) key .overwrite := by
  refine ⟨?_, fun k hk => writeListing_ne hk⟩
  rw [flagRegister_some hget, writeListing_self]
  exact .overwrite _ _ _

/-- Other fields of a listing may change under its flags. -/
theorem writes_keep (hget : s.spokeAssets.get? key = some stored)
    (heq : flags stored = flags config) :
    s.WritesListing { s with spokeAssets := s.spokeAssets.set key config } key .keep := by
  have hsame : { s with spokeAssets := s.spokeAssets.set key config }.flagRegister key =
      s.flagRegister key := by
    rw [flagRegister_some hget, heq]
    simp [flagRegister, getSpokeFlagsEpoch]
  refine ⟨?_, fun k hk => ?_⟩
  · rw [hsame]
    exact .keep _
  · simp [flagRegister, getSpokeFlagsEpoch, SortedMap.get?_set_ne _ _ hk]

theorem writes_remove (hget : s.spokeAssets.get? key = some stored) :
    s.WritesListing { s with spokeAssets := s.spokeAssets.erase key } key .remove := by
  have hgone : { s with spokeAssets := s.spokeAssets.erase key }.flagRegister key =
      ⟨none, getSpokeFlagsEpoch s key⟩ := by
    simp [flagRegister, getSpokeFlagsEpoch]
  refine ⟨?_, fun k hk => ?_⟩
  · rw [flagRegister_some hget, hgone]
    exact .remove _ _
  · simp [flagRegister, getSpokeFlagsEpoch, SortedMap.get?_erase_ne _ hk]

end ControllerStore

open ControllerStore

namespace Config

variable {s s' : Invocation W}

theorem setSpokeAsset_ok {key : SpokeAssetKey} {config : SpokeAssetConfig} {u : Unit}
    (hrun : (setSpokeAsset key config : Ctrl W Unit) s = .ok u s') :
    s' = { s with store.spokeAssets := s.store.spokeAssets.set key config } :=
  (modify_ok_iff.mp hrun).symm

theorem bumpSpokeFlagsEpoch_ok {key : SpokeAssetKey} {u : Unit}
    (hrun : (bumpSpokeFlagsEpoch key : Ctrl W Unit) s = .ok u s') :
    s' = { s with store.spokeFlagsEpoch :=
      s.store.spokeFlagsEpoch.set key (getSpokeFlagsEpoch s.store key + 1) } := by
  replace hrun := store_bind_ok hrun
  obtain ⟨-, hrun⟩ := assertWithError_bind_ok hrun
  exact (modify_ok_iff.mp hrun).symm

theorem writeSpokeAssetFlags_ok {key : SpokeAssetKey} {config : SpokeAssetConfig}
    {paused frozen noSeize : Bool} {u : Unit}
    (hrun : (writeSpokeAssetFlags key config paused frozen noSeize : Ctrl W Unit) s =
      .ok u s') :
    s'.store = s.store.writeListing key { config with paused, frozen, noSeize } := by
  obtain ⟨_, _, hset, hbump⟩ := bind_ok_iff.mp hrun
  obtain rfl := setSpokeAsset_ok hset
  obtain rfl := bumpSpokeFlagsEpoch_ok hbump
  rfl

end Config

namespace Config

variable {s s' : Invocation W}

theorem requireRegistration_ok {args : SpokeAssetArgs} {key : SpokeAssetKey}
    {mutation : SpokeAssetMutation} {stored : Option SpokeAssetConfig}
    (hrun : (requireRegistration args key mutation : Ctrl W (Option SpokeAssetConfig)) s =
      .ok stored s') :
    s' = s ∧ stored = s.store.spokeAssets.get? key ∧ (mutation = .add ↔ stored = none) ∧
      ∀ old, stored = some old → flags old ≤ (args.paused, args.frozen, args.noSeize) := by
  replace hrun := store_bind_ok hrun
  obtain ⟨spoke, -, hrun⟩ := lift_bind_ok_iff.mp hrun
  cases mutation with
  | add =>
    obtain ⟨-, hrun⟩ := assertWithError_bind_ok hrun
    obtain ⟨hnew, hrun⟩ := assertWithError_bind_ok hrun
    obtain ⟨rfl, rfl⟩ := pure_ok_iff.mp hrun
    exact ⟨rfl, hnew.symm, by simp, fun old hold => by cases hold⟩
  | edit =>
    obtain ⟨old, hold, hrun⟩ := unwrapOr_bind_ok hrun
    obtain ⟨_, hratchet, hrun⟩ := lift_bind_ok_iff.mp hrun
    obtain ⟨rfl, rfl⟩ := pure_ok_iff.mp hrun
    refine ⟨rfl, hold.symm, by simp, fun old' heq => ?_⟩
    obtain rfl := Option.some.inj heq
    exact requireFlagRatchet_ok hratchet

/-- The listing is written, and its epoch moved on unless its flags were there already. -/
theorem upsertSpokeAsset_ok {args : SpokeAssetArgs} {mutation : SpokeAssetMutation} {u : Unit}
    {key : SpokeAssetKey} (hkey : key = ⟨args.spokeId, args.hubId, args.asset⟩)
    (hrun : (upsertSpokeAsset args mutation : Ctrl W Unit) s = .ok u s') :
    ∃ config, flags config = (args.paused, args.frozen, args.noSeize) ∧
      (mutation = .add ↔ s.store.spokeAssets.get? key = none) ∧
      (∀ old, s.store.spokeAssets.get? key = some old → flags old ≤ flags config) ∧
      s'.store =
        if (s.store.spokeAssets.get? key).map flags ≠ some (flags config) then
          s.store.writeListing key config
        else { s.store with spokeAssets := s.store.spokeAssets.set key config } := by
  subst hkey
  obtain ⟨_, -, hrun⟩ := lift_bind_ok_iff.mp hrun
  obtain ⟨_, -, hrun⟩ := lift_bind_ok_iff.mp hrun
  obtain ⟨-, hrun⟩ := assertWithError_bind_ok hrun
  obtain ⟨stored, _, hstored, hrun⟩ := bind_ok_iff.mp hrun
  obtain ⟨rfl, rfl, hadd, hratchet⟩ := requireRegistration_ok hstored
  obtain ⟨_, _, hget, hrun⟩ := bind_ok_iff.mp hrun
  obtain ⟨rfl, rfl⟩ := get_ok_iff.mp hget
  obtain ⟨market, -, hrun⟩ := lift_bind_ok_iff.mp hrun
  obtain ⟨_, -, hrun⟩ := lift_bind_ok_iff.mp hrun
  obtain ⟨_, -, hrun⟩ := lift_bind_ok_iff.mp hrun
  obtain ⟨-, hrun⟩ := assertWithError_bind_ok hrun
  obtain ⟨_, _, hset, hrun⟩ := bind_ok_iff.mp hrun
  obtain rfl := setSpokeAsset_ok hset
  refine ⟨⟨⟨args.ltv, args.threshold, args.bonus, args.liquidationFees, args.canCollateral,
    args.canBorrow⟩, args.paused, args.frozen, args.noSeize, args.supplyCap, args.borrowCap⟩, rfl,
    hadd, hratchet, ?_⟩
  split at hrun
  · rename_i hne
    rw [if_pos hne]
    obtain rfl := bumpSpokeFlagsEpoch_ok hrun
    rfl
  · rename_i heq
    rw [if_neg heq]
    obtain ⟨-, rfl⟩ := pure_ok_iff.mp hrun
    rfl

theorem addAssetToSpoke_writes {args : SpokeAssetArgs} {u : Unit}
    (hrun : (addAssetToSpoke args : Ctrl W Unit) s = .ok u s') :
    s.store.WritesListing s'.store ⟨args.spokeId, args.hubId, args.asset⟩ .create := by
  obtain ⟨config, -, hadd, -, hstore⟩ := upsertSpokeAsset_ok rfl hrun
  have hget := hadd.mp rfl
  rw [hstore, hget, if_pos (by simp)]
  exact writes_create hget

theorem editAssetInSpoke_writes {args : SpokeAssetArgs} {u : Unit}
    (hrun : (editAssetInSpoke args : Ctrl W Unit) s = .ok u s') :
    s.store.WritesListing s'.store ⟨args.spokeId, args.hubId, args.asset⟩ .keep ∨
      s.store.WritesListing s'.store ⟨args.spokeId, args.hubId, args.asset⟩ .raise := by
  obtain ⟨config, -, hadd, hratchet, hstore⟩ := upsertSpokeAsset_ok rfl hrun
  cases hget : s.store.spokeAssets.get? ⟨args.spokeId, args.hubId, args.asset⟩ with
  | none => cases hadd.mpr hget
  | some old =>
    rw [hget, Option.map_some] at hstore
    by_cases heq : flags old = flags config
    · rw [if_neg (by simp [heq])] at hstore
      rw [hstore]
      exact .inl (writes_keep hget heq)
    · rw [if_pos (by simp [heq])] at hstore
      rw [hstore]
      exact .inr (writes_raise hget (lt_of_le_of_ne (hratchet old hget) heq))

theorem setSpokeAssetFlags_writes {spokeId : Nat} {hubAsset : HubAssetKey}
    {paused frozen noSeize : Bool} {u : Unit}
    (hrun : (setSpokeAssetFlags spokeId hubAsset paused frozen noSeize : Ctrl W Unit) s =
      .ok u s') :
    s.store.WritesListing s'.store ⟨spokeId, hubAsset⟩ .raise := by
  replace hrun := store_bind_ok hrun
  obtain ⟨config, hget, hrun⟩ := unwrapOr_bind_ok hrun
  obtain ⟨_, hratchet, hrun⟩ := lift_bind_ok_iff.mp hrun
  obtain ⟨hne, hrun⟩ := assertWithError_bind_ok hrun
  rw [writeSpokeAssetFlags_ok hrun]
  exact writes_raise hget (lt_of_le_of_ne (requireFlagRatchet_ok hratchet) hne.symm)

/-- A relaxation writes the flags it names, at the epoch it expects. -/
theorem relaxSpokeAssetFlags_writes {spokeId : Nat} {hubAsset : HubAssetKey}
    {expectedEpoch : Nat} {paused frozen noSeize : Bool} {u : Unit}
    (hrun : (relaxSpokeAssetFlags spokeId hubAsset expectedEpoch paused frozen noSeize :
      Ctrl W Unit) s = .ok u s') :
    s.store.WritesListing s'.store ⟨spokeId, hubAsset⟩ .overwrite ∧
      (∃ f, s.store.flagRegister ⟨spokeId, hubAsset⟩ = ⟨some f, expectedEpoch⟩) ∧
      s'.store.flagRegister ⟨spokeId, hubAsset⟩ =
        ⟨some (paused, frozen, noSeize), expectedEpoch + 1⟩ := by
  replace hrun := store_bind_ok hrun
  obtain ⟨config, hlisted, hrun⟩ := unwrapOr_bind_ok hrun
  obtain ⟨rfl, hwrite⟩ := assertWithError_bind_ok hrun
  rw [writeSpokeAssetFlags_ok hwrite]
  exact ⟨writes_overwrite hlisted, ⟨_, flagRegister_some hlisted⟩, writeListing_self ..⟩

theorem removeAssetFromSpoke_writes {hubAsset : HubAssetKey} {spokeId : Nat} {u : Unit}
    (hrun : (removeAssetFromSpoke hubAsset spokeId : Ctrl W Unit) s = .ok u s') :
    s.store.WritesListing s'.store ⟨spokeId, hubAsset⟩ .remove := by
  replace hrun := store_bind_ok hrun
  obtain ⟨hlisted, hrun⟩ := assertWithError_bind_ok hrun
  obtain ⟨-, hrun⟩ := assertWithError_bind_ok hrun
  obtain rfl := modify_ok_iff.mp hrun
  obtain ⟨config, hget⟩ := Option.isSome_iff_exists.mp hlisted
  exact writes_remove hget

end Config

/-! ## Every call -/

/-- The calls that overwrite the flags of `key`, with what they write. -/
def ControllerCall.Relaxes (call : ControllerCall) (key : SpokeAssetKey) (epoch : Nat)
    (f : Flags) : Prop :=
  call = .relaxSpokeAssetFlags key.spokeId key.hubAsset epoch f.1 f.2.1 f.2.2

/-- **What a call does to a listing.** Only a relaxation overwrites flags. -/
theorem ControllerCall.exec_move {call : ControllerCall} {s s' : System W}
    (hexec : call.exec h timestamp s = .ok s') (key : SpokeAssetKey) :
    ∃ w, Move (s.store.flagRegister key) w (s'.store.flagRegister key) ∧
      (w = .overwrite → ∃ epoch f, call.Relaxes key epoch f) := by
  obtain ⟨t, hbody, rfl⟩ := exec_ok hexec
  have hkept : t.store.flagRegister key = s.store.flagRegister key →
      ∃ w, Move (s.store.flagRegister key) w (t.store.flagRegister key) ∧
        (w = .overwrite → ∃ epoch f, call.Relaxes key epoch f) := by
    intro hsame
    rw [hsame]
    exact ⟨.keep, .keep _, fun hw => by cases hw⟩
  have hwrites : ∀ {k w}, s.store.WritesListing t.store k w →
      (w = .overwrite → k = key → ∃ epoch f, call.Relaxes key epoch f) →
      ∃ w, Move (s.store.flagRegister key) w (t.store.flagRegister key) ∧
        (w = .overwrite → ∃ epoch f, call.Relaxes key epoch f) := by
    intro k w hw hrelax
    by_cases hk : key = k
    · subst hk
      exact ⟨w, hw.move, fun heq => hrelax heq rfl⟩
    · exact hkept (hw.frame key hk)
  cases call with
  | addAssetToSpoke args =>
    exact hwrites (addAssetToSpoke_writes hbody) fun heq => by cases heq
  | editAssetInSpoke args =>
    rcases editAssetInSpoke_writes hbody with hw | hw
    · exact hwrites hw fun heq => by cases heq
    · exact hwrites hw fun heq => by cases heq
  | setSpokeAssetFlags spokeId hubAsset paused frozen noSeize =>
    exact hwrites (setSpokeAssetFlags_writes hbody) fun heq => by cases heq
  | relaxSpokeAssetFlags spokeId hubAsset expectedEpoch paused frozen noSeize =>
    refine hwrites (relaxSpokeAssetFlags_writes hbody).1 ?_
    rintro - rfl
    exact ⟨expectedEpoch, (paused, frozen, noSeize), rfl⟩
  | removeAssetFromSpoke hubAsset spokeId =>
    exact hwrites (removeAssetFromSpoke_writes hbody) fun heq => by cases heq
  | _ =>
    refine hkept ?_
    exact congrFun ((body_listings rfl).ok hbody) key

end Lending
