import LendingXlm.Controller.Entrypoints

/-!
# Views

`contracts/controller/src/views.rs` and the getters of `lib.rs` that other contracts call. A view
runs on an empty context, like an entrypoint, and writes nothing but that context.
-/

namespace Lending

open Ctrl

variable {W : Type} (h : ControllerHost W) (timestamp : Nat)

namespace Views

def getMarketIndex (hubAsset : HubAssetKey) : Ctrl W MarketIndex :=
  Context.cachedMarketIndex timestamp hubAsset

def getSpoke (spokeId : Nat) : Ctrl W SpokeConfig := do
  (← store).getSpoke spokeId

def getSpokeAsset (spokeId : Nat) (hubAsset : HubAssetKey) : Ctrl W SpokeAssetConfig := do
  unwrapOr ((← store).getSpokeAsset spokeId hubAsset) .assetNotInSpoke

def accountExists (accountId : Nat) : Ctrl W Bool := do
  return ((← store).metas.get? accountId).isSome

/-- The supply position in asset units, rounded half up. -/
def collateralAmountForHubAsset (accountId : Nat) (hubAsset : HubAssetKey) : Ctrl W Int := do
  match ((← store).getSupplyPositions accountId).get? hubAsset with
  | none => return 0
  | some position =>
    let marketIndex ← Context.cachedMarketIndex timestamp hubAsset
    let market ← Context.cachedPoolSyncData hubAsset
    unscaleSupply position.scaledAmount marketIndex.supplyIndex market.params.assetDecimals

end Views

end Lending
