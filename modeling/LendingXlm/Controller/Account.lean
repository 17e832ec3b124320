import LendingXlm.Controller.Context

/-!
# Payments and accounts

`contracts/controller/src/{payments.rs,account.rs}`, the account half of `storage/account.rs`
and the calls of `external/position_nft.rs`.
-/

namespace Lending

open Ctrl

variable {W : Type} (h : ControllerHost W)

/-! ## `payments.rs` -/

namespace Payments

/-- What a zero amount means when payments are added up. -/
inductive ZeroLeg where
  | rejected
  | meansAll
  deriving DecidableEq, Repr

def aggregatePaymentAmount (previous : Option Int) (amount : Int) (zeroLeg : ZeroLeg) :
    Result Int := do
  requireNonnegAmount amount
  if amount = 0 then
    match zeroLeg, previous with
    | .rejected, _ => throw .amountMustBePositive
    | .meansAll, none => return 0
    | .meansAll, some p => if p = 0 then return 0 else throw .invalidPayments
  else if zeroLeg = .meansAll ∧ previous = some 0 then
    throw .invalidPayments
  else
    orThrow (I128.checkedAdd (previous.getD 0) amount) .mathOverflow

/-- The total of `hubAsset` in an order of first-seen keys. -/
def lookupPayment (hubAsset : HubAssetKey) (totals : List HubPayment) : Option Int :=
  (totals.find? fun e => e.1 = hubAsset).map Prod.snd

/-- One more payment: a first-seen key goes to the end, a known one is added up in place. -/
def aggregateStep (zeroLeg : ZeroLeg) (totals : List HubPayment) (payment : HubPayment) :
    Result (List HubPayment) := do
  let previous := lookupPayment payment.1 totals
  let next ← aggregatePaymentAmount previous payment.2 zeroLeg
  if previous.isNone then
    return totals ++ [(payment.1, next)]
  else
    return totals.map fun e => if e.1 = payment.1 then (e.1, next) else e

/-- Adds up the payments per market, in first-seen order. The source keeps the order and the
totals apart; here the totals stand in the order. -/
def aggregatePayments (payments : List HubPayment) (zeroLeg : ZeroLeg) :
    Result (List HubPayment) := do
  requireNonEmptyPayments payments
  payments.foldlM (aggregateStep zeroLeg) []

def aggregatePositivePayments (payments : List HubPayment) : Result (List HubPayment) :=
  aggregatePayments payments .rejected

def transferAmountMeasured (asset sender recipient : Address) (amount : Int)
    (nonPositiveError : Error) : Ctrl W Int :=
  outside fun w => h.transferAmountMeasured w asset sender recipient amount nonPositiveError

def transfer (asset sender recipient : Address) (amount : Int) : Ctrl W Unit :=
  outside fun w => do return (← h.transfer w asset sender recipient amount, ())

def balanceDeltaSince (asset holder : Address) (before : Int) : Ctrl W Int := do
  let balance := h.balance (← world) asset holder
  unwrapOr (I128.checkedSub balance before) .internalError

def snapshotBalances (holder : Address) (assets : List Address) : Ctrl W (SortedMap Address Int) :=
  do
    let w ← world
    return assets.foldl (fun snapshot asset =>
      if snapshot.contains asset then snapshot
      else snapshot.set asset (h.balance w asset holder)) .empty

def refundControllerBalanceDelta (asset : Address) (balanceBefore : Int) (refundTo : Address) :
    Ctrl W Unit := do
  let excess ← balanceDeltaSince h asset h.controller balanceBefore
  if excess > 0 then
    transfer h asset h.controller refundTo excess
  else
    return ()

end Payments

/-! ## `storage/account.rs` -/

namespace Storage

/-- The NFT's owner; `none` when the token does not exist. -/
def tryAccountOwner (accountId : Nat) : Ctrl W (Option Address) := do
  let s ← get
  if accountId < u32Bound ∧ s.nft.tokens.contains accountId then
    return some (h.nftOwner s.pool.world accountId)
  else
    return none

def accountOwner (accountId : Nat) : Ctrl W Address := do
  unwrapOr (← tryAccountOwner h accountId) .accountNotFound

def accountFromParts (owner : Address) (m : AccountMeta)
    (supplyPositions : SortedMap HubAssetKey AccountPosition)
    (borrowPositions : SortedMap HubAssetKey DebtPosition) : Account where
  owner := owner
  spokeId := m.spokeId
  mode := m.mode
  supplyPositions := supplyPositions
  borrowPositions := borrowPositions

def getAccountMeta (accountId : Nat) : Ctrl W AccountMeta := do
  unwrapOr ((← store).metas.get? accountId) .accountNotInMarket

def getAccount (accountId : Nat) : Ctrl W Account := do
  let s ← store
  let m ← unwrapOr (s.metas.get? accountId) .accountNotFound
  let owner ← accountOwner h accountId
  return accountFromParts owner m (s.getSupplyPositions accountId) (s.getDebtPositions accountId)

/-- The account with its supply left unread: the empty map says nothing about it. -/
def getAccountBorrowOnly (accountId : Nat) : Ctrl W Account := do
  let m ← getAccountMeta accountId
  let owner ← accountOwner h accountId
  return accountFromParts owner m .empty ((← store).getDebtPositions accountId)

end Storage

/-! ## The position NFT -/

/-- `mint`: the next sequential id. -/
def nftMintCall (owner : Address) : Ctrl W Nat := do
  let id := (← get).nft.nextTokenId
  assertWithError (id + 1 < u32Bound) .foreignTrap
  modify fun s =>
    { s with
      nft := { nextTokenId := id + 1, tokens := s.nft.tokens.set id () }
      pool.world := h.nftAssign s.pool.world id owner }
  return id

def nftBurnCall (accountId : Nat) : Ctrl W Unit := do
  assertWithError (accountId < u32Bound) .accountNotFound
  assertWithError ((← get).nft.tokens.contains accountId) .foreignTrap
  modify fun s =>
    { s with
      nft := { s.nft with tokens := s.nft.tokens.erase accountId }
      pool.world := h.nftRelease s.pool.world accountId }

/-! ## `account.rs` -/

namespace Account

inductive SpokeAdmission where
  | activeOnly
  | allowDeprecated
  deriving DecidableEq, Repr

inductive AccountGuard where
  | supply | migrate | multiply
  deriving DecidableEq, Repr

def createAccountWith (owner : Address) (spokeId : Nat) (mode : PositionMode)
    (admission : SpokeAdmission) : Ctrl W (Nat × Account) := do
  assertWithError (spokeId ≥ 1) .spokeNotFound
  match admission with
  | .activeOnly => let _ ← Context.activeSpoke spokeId
  | .allowDeprecated => let _ ← Context.spokeConfig spokeId
  let accountId ← nftMintCall h owner
  let account : Account :=
    { owner, spokeId, mode, supplyPositions := .empty, borrowPositions := .empty }
  modifyStore fun s => { s with metas := s.metas.set accountId { spokeId, mode } }
  return (accountId, account)

def createAccount (owner : Address) (spokeId : Nat) (mode : PositionMode) :
    Ctrl W (Nat × Account) :=
  createAccountWith h owner spokeId mode .activeOnly

def isOwnerOrDelegate (accountId : Nat) (caller owner : Address) : Ctrl W Bool := do
  let s ← store
  return caller = owner ∨ (s.isActiveManager caller ∧ caller ∈ s.getDelegates accountId owner)

def requireOwnerOrDelegate (accountId : Nat) (caller owner : Address) : Ctrl W Unit := do
  assertWithError (← isOwnerOrDelegate accountId caller owner) .notAuthorized

def requireSpokeMatch (account : Account) (spokeId : Nat) : Ctrl W Unit :=
  assertWithError (spokeId = account.spokeId) .spokeMismatch

def requireGuard (guard : AccountGuard) (accountId : Nat) (caller : Address) (account : Account)
    (spokeId : Nat) (mode : PositionMode) : Ctrl W Unit := do
  match guard with
  | .supply => requireSpokeMatch account spokeId
  | .migrate =>
    requireOwnerOrDelegate accountId caller account.owner
    requireSpokeMatch account spokeId
  | .multiply =>
    requireOwnerOrDelegate accountId caller account.owner
    requireSpokeMatch account spokeId
    assertWithError (account.mode = mode) .accountModeMismatch

def loadOrCreateAccount (caller : Address) (accountId spokeId : Nat) (mode : PositionMode)
    (guard : AccountGuard) : Ctrl W (Nat × Account) := do
  if accountId = 0 then
    createAccount h caller spokeId mode
  else
    let account ← Storage.getAccount h accountId
    requireGuard guard accountId caller account spokeId mode
    return (accountId, account)

def requireAccountOwner (accountId : Nat) (caller : Address) : Ctrl W AccountMeta := do
  let m ← Storage.getAccountMeta accountId
  let owner ← Storage.accountOwner h accountId
  assertWithError (owner = caller) .accountNotInMarket
  return m

def removeAccountAndBurnNft (accountId : Nat) : Ctrl W Unit := do
  modifyStore (·.removeAccountEntry accountId)
  nftBurnCall h accountId

def cleanupAccountIfEmpty (account : Account) (accountId : Nat) : Ctrl W Unit := do
  if account.isEmpty then
    removeAccountAndBurnNft h accountId
  else
    return ()

/-- Writes the position, or removes it when nothing is left of it. -/
def updateOrRemoveSupplyPosition (account : Account) (hubAsset : HubAssetKey)
    (position : AccountPosition) : Account :=
  if position.scaledAmount ≠ Ray.zero then
    { account with supplyPositions := account.supplyPositions.set hubAsset position }
  else
    { account with supplyPositions := account.supplyPositions.erase hubAsset }

def updateOrRemoveDebtPosition (account : Account) (hubAsset : HubAssetKey)
    (position : DebtPosition) : Account :=
  if position.scaledAmount ≠ Ray.zero then
    { account with borrowPositions := account.borrowPositions.set hubAsset position }
  else
    { account with borrowPositions := account.borrowPositions.erase hubAsset }

/-- Grants or revokes a delegate for the current owner. -/
def setAccountDelegate (caller : Address) (accountId : Nat) (delegate : Address) (add : Bool) :
    Ctrl W Unit := do
  let _ ← requireAccountOwner h accountId caller
  let s ← store
  if add then
    assertWithError (s.isActiveManager delegate) .notAuthorized
    let delegates := s.getDelegates accountId caller
    if delegate ∈ delegates then
      return ()
    else
      assertWithError (delegates.length < maxDelegates) .registryCapReached
      modifyStore fun s =>
        { s with delegates := s.delegates.set accountId ⟨caller, delegates ++ [delegate]⟩ }
  else
    match s.delegates.get? accountId with
    | none => return ()
    | some grant =>
      -- A grant of a previous owner is deleted, so that it cannot come back to life.
      let delegates := if grant.grantedBy = caller then grant.delegates.erase delegate else []
      if delegates = [] then
        modifyStore fun s => { s with delegates := s.delegates.erase accountId }
      else
        modifyStore fun s => { s with delegates := s.delegates.set accountId ⟨caller, delegates⟩ }

end Account

end Lending
