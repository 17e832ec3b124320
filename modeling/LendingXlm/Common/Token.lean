import LendingXlm.Common.Types

/-!
# The world outside the contracts

`W` is the state of everything the contracts call but do not contain: tokens, flash-loan
receivers, routers. A call into it is a function that may trap and returns the new state. The
host does not let a contract be entered again while it is on the call stack, so such a call
cannot change the contracts' own storage.

`transferAmountMeasured` is `common/src/token.rs`.
-/

namespace Lending

/-- The token interface over the outside state `W`. -/
structure TokenHost (W : Type) where
  balance : W → (asset holder : Address) → Int
  allowance : W → (asset holder spender : Address) → Int
  transfer : W → (asset sender recipient : Address) → Int → Result W
  transferFrom : W → (asset spender sender recipient : Address) → Int → Result W

namespace TokenHost

variable {W : Type} (h : TokenHost W)

/-- `try_transfer` with the outcome ignored: a failed transfer leaves no trace. -/
def tryTransfer (w : W) (asset sender recipient : Address) (amount : Int) : W :=
  match h.transfer w asset sender recipient amount with
  | .ok w' => w'
  | .error _ => w

/-- Transfers and returns what arrived, measured at the recipient. -/
def transferAmountMeasured (w : W) (asset sender recipient : Address) (amount : Int)
    (nonPositiveError : Error) : Result (W × Int) := do
  require (amount > 0) nonPositiveError
  let pre := h.balance w asset recipient
  let w ← h.transfer w asset sender recipient amount
  let post := h.balance w asset recipient
  let received ← orThrow (I128.checkedSub post pre) .amountMustBePositive
  pure (w, received)

end TokenHost

end Lending
