import Kontracts.Executor.Buffer
import Kontracts.Executor.Builds
import Kontracts.Executor.Digests
import Kontracts.Executor.Eased
import Kontracts.Executor.ExecuteCode
import Kontracts.Executor.Exhaustion
import Kontracts.Executor.Fuel
import Kontracts.Executor.HostFunctions
import Kontracts.Executor.HostSpec
import Kontracts.Executor.LargerLimits
import Kontracts.Executor.LimitGates
import Kontracts.Executor.Limits
import Kontracts.Executor.Panics
import Kontracts.Executor.Passes
import Kontracts.Executor.RawKeys
import Kontracts.Executor.Script
import Kontracts.Guest.Interpreter
import Kontracts.Guest.Kontract
import Kontracts.Guest.Macro
import Kontracts.Guest.PlainMap
import Kontracts.Guest.RoundTrip
import Kontracts.Guest.WasmTest
import Kontracts.Library.BTreeMap
import Kontracts.Library.Bounded
import Kontracts.Library.Escrow
import Kontracts.Library.KeyValue
import Kontracts.Library.Metered
import Kontracts.Library.Programs
import Kontracts.Library.Runs
import Kontracts.Library.Scale
import Kontracts.Library.Traces
import Kontracts.Pallet.Accounts
import Kontracts.Pallet.Builds
import Kontracts.Pallet.ByteLimit
import Kontracts.Pallet.Canonical
import Kontracts.Pallet.Capacity
import Kontracts.Pallet.Codecs
import Kontracts.Pallet.Declared
import Kontracts.Pallet.Deployed
import Kontracts.Pallet.Deposits
import Kontracts.Pallet.Endless
import Kontracts.Pallet.EventLog
import Kontracts.Pallet.ExactSizes
import Kontracts.Pallet.Extrinsics
import Kontracts.Pallet.Isolation
import Kontracts.Pallet.Outcomes
import Kontracts.Pallet.Penalty
import Kontracts.Pallet.PlainMap
import Kontracts.Pallet.Raised
import Kontracts.Pallet.Refinement
import Kontracts.Pallet.Refunds
import Kontracts.Pallet.Reordering
import Kontracts.Pallet.Requests
import Kontracts.Pallet.Samples
import Kontracts.Pallet.Settlement
import Kontracts.Pallet.Sizes
import Kontracts.Pallet.Solvency
import Kontracts.Pallet.State
import Kontracts.Pallet.Steps
import Kontracts.Pallet.Stranded
import Kontracts.Pallet.Weights
