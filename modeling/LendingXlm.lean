import LendingXlm.Lib.Fallible
import LendingXlm.Lib.Rounding
import LendingXlm.Common.Types
import LendingXlm.Common.Rates
import LendingXlm.Pool.Cache
import LendingXlm.Pool.Ops
import LendingXlm.Pool.Preview
import LendingXlm.Pool.Solvency
import LendingXlm.Pool.Accrual
import LendingXlm.Pool.Custody
import LendingXlm.Controller.Liquidation.Seizure
import LendingXlm.Controller.Liquidation.SeizureValue
import LendingXlm.Controller.Liquidation.WholeUnits
import LendingXlm.Controller.Entrypoints
import LendingXlm.Controller.Conservation
import LendingXlm.XoxnoOracle.Registry
import LendingXlm.Controller.Delegates
import LendingXlm.PriceAggregator.Agreement
import LendingXlm.SwapAggregator.Backing
import LendingXlm.Common.Settlement
import LendingXlm.Pool.Conservation
import LendingXlm.Governance.Roles
import LendingXlm.Governance.Timelock
import LendingXlm.Governance.Relaxation
import LendingXlm.Common.Exactness
import LendingXlm.Controller.Caps
import LendingXlm.Common.Compound
import LendingXlm.XoxnoOracle.History
import LendingXlm.PriceAggregator.Redemption
import LendingXlm.SwapAggregator.Execution
import LendingXlm.SwapAggregator.Conservation
import LendingXlm.Controller.Liquidation.Refusal
import LendingXlm.Controller.Restamping
import LendingXlm.Controller.Escrow
import LendingXlm.Controller.Files
import LendingXlm.Controller.Sovereignty
import LendingXlm.Controller.Acts
import LendingXlm.Controller.Custody
import LendingXlm.Controller.Holdings
import LendingXlm.Controller.Views
import LendingXlm.DefindexStrategy.Isolation
