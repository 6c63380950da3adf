import AuroraOS.Arch.Switch
import AuroraOS.Cap.Lineage
import AuroraOS.Elf.Stack
import AuroraOS.Ext2.Inode
import AuroraOS.Fat32.Hierarchy
import AuroraOS.Fat32.Chains
import AuroraOS.Fd.Counts
import AuroraOS.Fd.Route
import AuroraOS.Fsck.Metadata
import AuroraOS.Fsck.Rerun
import AuroraOS.Journal.Area
import AuroraOS.Kmod.Load
import AuroraOS.Mem.Placement
import AuroraOS.Net.Arp
import AuroraOS.Net.Congestion
import AuroraOS.Net.Datagram
import AuroraOS.Net.Dhcp
import AuroraOS.Net.Http
import AuroraOS.Net.Ipv6
import AuroraOS.Net.Resolver
import AuroraOS.Net.Queues
import AuroraOS.Nvme.Completion
import AuroraOS.Nvme.Prp
import AuroraOS.PageTable.Isolation
import AuroraOS.Pipe.Fifo
import AuroraOS.Pipe.Wakeup
import AuroraOS.Proc.Mmap
import AuroraOS.Ramfs.Truncate
import AuroraOS.Sched.FamilyRun
import AuroraOS.Sched.Halt
import AuroraOS.Sched.Pid
import AuroraOS.Seccomp.Confine
import AuroraOS.Seccomp.Lock
import AuroraOS.Signal.Resume
import AuroraOS.Str.Printf
import AuroraOS.Tcp.Handshake
import AuroraOS.Tcp.Stream
import AuroraOS.Vfs.Coherence
import AuroraOS.Vfs.LockOnce
import AuroraOS.Vfs.Paths
import AuroraOS.Vfs.Refine
import AuroraOS.Virtio.Ownership
