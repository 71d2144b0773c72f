import DotnetVm.Types.Identity
import DotnetVm.Threads.Resume
import DotnetVm.Pointers.RoundTrip
import DotnetVm.Stack.TailCalls
import DotnetVm.Memory.Moves
import DotnetVm.Threads.Registrations
import DotnetVm.Memory.FrameHomes
import DotnetVm.Threads.Interlocked
import DotnetVm.Threads.SyncBlock
import DotnetVm.Threads.StaticInitRuns
import DotnetVm.Stack.Initializers
import DotnetVm.Stack.ReturnActions
import DotnetVm.Gc.Sweeping
import DotnetVm.Gc.TableRuns
import DotnetVm.Exceptions.Finalizers
import DotnetVm.Assemblies.Loader
import DotnetVm.Reflection.Registry
import DotnetVm.Exceptions.FirstPass
import DotnetVm.Exceptions.SecondPass
import DotnetVm.Intrinsics.Registry
import DotnetVm.Intrinsics.Strings
import DotnetVm.Objects.Fields
import DotnetVm.Reflection.TypeObjects
import DotnetVm.Exceptions.Parsing
import DotnetVm.Stack.Multicast
import DotnetVm.Values.Comparison
import DotnetVm.Objects.Casting
import DotnetVm.Types.Hashing
import DotnetVm.Values.Conversions
import DotnetVm.Layout.Overlaps
