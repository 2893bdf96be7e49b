import Wapc.Host.Crash
import Wapc.Host.Delivery
import Wapc.Host.Agreement
import Wapc.Host.Trap
import Wapc.Provider.Parity
import Wapc.Provider.Wasi
import Wapc.Provider.Instantiation
import Wapc.Guest.GuestCall
import Wapc.Guest.HostCall
import Wapc.Guest.AsyncHostCall
import Wapc.Guest.AsyncDispatch
import Wapc.Guest.StopCondition
import Wapc.Guest.PendingCalls
import Wapc.Guest.Locks
import Wapc.Host.Leftovers
import Wapc.Runtime.CallbackIds
import Wapc.Runtime.Rest
import Wapc.Runtime.Entries
import Wapc.Pool.Requests
import Wapc.Pool.Stranding
import Wapc.Pool.Shutdown
import Wapc.Pool.Panics
import Wapc.Pool.Elasticity
import Wapc.Codegen.Paragraphs
import Wapc.Codegen.SnakeCase
import Wapc.Codegen.Scaffold
import Wapc.Codegen.Modules
import Wapc.Codegen.Dispatch
import Wapc.System.Rest
