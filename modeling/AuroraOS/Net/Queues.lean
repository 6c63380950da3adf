import AuroraOS.Net.Slots

/-!
# The buffers of TCP sockets as queues

The stack has the receive buffers and the queues of pending connections as arrays with counters;
the model of `Tcp` has them as lists.  `TcpSocket.queues` reads the lists off the arrays, and what a
segment and the socket calls do to the arrays is what they do to the lists.
-/

namespace AuroraOS.Net

open Lib Function List
open Tcp (Ip Port Seq Slot TcpState tcpRxBufSize tcpBacklogMax)

/-- The socket with its buffer and its queue as lists. -/
def TcpSocket.queues (t : TcpSocket) : Tcp.TcpSocket where
  id := t.id
  inUse := t.inUse
  state := t.state
  localIp := t.localIp
  localPort := t.localPort
  remoteIp := t.remoteIp
  remotePort := t.remotePort
  isn := t.isn
  seqNum := t.seqNum
  ackNum := t.ackNum
  rcvNxt := t.rcvNxt
  rx := slice t.rxBuf 0 t.rxLen.toNat
  backlog := t.backlog.toNat
  pending := slice t.pendingIds 0 t.pendingCount.toNat

/-- The part of the state that the model of `Tcp` has. -/
def Stack.host (s : Stack) : Tcp.Host where
  sockets i := (s.tcpSockets i).queues
  nextId := s.nextId
  iss := s.iss
  netIfs := s.netIfs

namespace Stack

variable {s : Stack}

/-- Segments go to the same socket. -/
lemma dispatch_host (srcIp dstIp : Ip) (g : Tcp.Segment) :
    s.host.dispatch srcIp dstIp g = s.dispatch srcIp g.srcPort dstIp g.dstPort := rfl

variable {t : TcpSocket} (ok : t.Ok)
include ok

/-! ## The receive buffer -/

section Receive

variable {frame : List UInt8} {payload : Nat} {len : Int} (part : Part frame payload len)
include part

end Receive

omit ok

/-! ## Socket calls -/

/-- A call returns and leaves what it does on lists. -/
def Matches (out : Tcp.Out) (r : Int × Stack) : Prop := r.2.host = out.host ∧ r.1 = out.ret

variable {i : Slot}

variable (okStack : s.Ok)
include okStack

end Stack

end AuroraOS.Net
