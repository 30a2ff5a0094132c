import OsCortex.Process.CreationChecks
import OsCortex.Process.LaunchChecks
import OsCortex.Syscall.FutexChecks
import OsCortex.Syscall.CondChecks
import OsCortex.Syscall.MemoryChecks
import OsCortex.Syscall.TimerfdChecks
import OsCortex.Process.LockChecks
import OsCortex.Syscall.ExitChecks
import OsCortex.Syscall.DescriptorSections
import OsCortex.Pkg.StableChecks
import OsCortex.Syscall.EpollChecks
import OsCortex.Syscall.PointerChecks
import OsCortex.Syscall.NumberChecks
import OsCortex.Syscall.EpollReports
import OsCortex.Syscall.StringChecks
import OsCortex.Syscall.KernelHalfChecks
import OsCortex.Wm.ButtonChecks
import OsCortex.Wm.WaitChecks
import OsCortex.Drivers.VirtioBlkChecks
import OsCortex.Store.VolumeChecks
import OsCortex.Compositor.OwnerChecks
import OsCortex.Compositor.BufferChecks
import OsCortex.Compositor.PaintChecks
import OsCortex.Compositor.StrideChecks
import OsCortex.Drivers.XhciRing
import OsCortex.Mm.BlockSplit
import OsCortex.Mm.PageMap
import OsCortex.Drivers.WasmCalls
import OsCortex.Process.PickChecks
import OsCortex.Process.DlSymbols
import OsCortex.Syscall.PlatformChannel
import OsCortex.Cortex.Ipc
import OsCortex.Cortex.Healing
import OsCortex.Drivers.Input
