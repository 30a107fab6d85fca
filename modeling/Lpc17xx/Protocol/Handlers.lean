import Lpc17xx.Protocol.Core

/-!
# The receive handlers and `rx_task`

`ethernet_rx_pkt`, `arp_rx_packet`, `ipv4_rx_packet`, `udp_rx_packet` and
`tcp_rx_packet`, each on the packet that the one before it left, and the inner
loop of `rx_task` that runs them until one asks for the packet to be dropped.
The constants added to a header's address are the offsets of its fields.
-/

namespace Lpc17xx.Protocol

open Lpc17xx.Memory
open Lpc17xx.Tcp

def etherTypeIp : UInt16 := 0x0800

def etherTypeArp : UInt16 := 0x0806

def ipProtoTcp : UInt8 := 0x6

def ipProtoUdp : UInt8 := 0x11

/-- `OUR_IP_ADDRESS`. -/
def ourIpAddress : UInt32 := 0xC0A800ab

/-- `ether_addr`, as `emac_init` sets it. -/
def etherAddr : List UInt8 := [0, 1, 2, 3, 4, 5]

/-- `ethernet_rx_pkt`.  The count of dropped packets is read by nobody. -/
def ethernetRxPkt : Rx Unit := do
  let header ← curData
  advance 14
  swapEndian16 (header + 12)
  let etherType ← read16 (header + 12)
  if etherType = etherTypeArp then setHandler .arp
  else if etherType = etherTypeIp then setHandler .ipv4
  else setHandler .drop

/-- `arp_swap_endian`. -/
def arpSwapEndian (packet : Nat) : Rx Unit := do
  swapEndian16 packet
  swapEndian16 (packet + 2)
  swapEndian16 (packet + 6)
  swapEndian32 (packet + 14)
  swapEndian32 (packet + 24)

/-- The reply that `arp_rx_packet` builds for a request. -/
def arpReply (sha : List UInt8) (spa : UInt32) : ArpPacket where
  HTYPE := 1
  PTYPE := etherTypeIp
  HLEN := 6
  PLEN := 4
  OPER := 2
  SHA := etherAddr
  SPA := ourIpAddress
  THA := sha
  TPA := spa

/-- `case OPER_REQUEST` of `arp_rx_packet`. -/
def arpRequest (packet : Nat) : Rx Unit := do
  let tpa ← read32 (packet + 24)
  if tpa = ourIpAddress then
    let sha ← readBytes (packet + 8) 6
    let spa ← read32 (packet + 14)
    let dhost ← readBytes (packet + 8) 6
    modify fun s => { s with tables := { s.tables with
      arpSent := s.tables.arpSent ++ [(dhost, arpReply sha spa)] } }

/-- The loop of `case OPER_REPLY` over the pending requests: the requests that
stay pending. -/
def arpFulfil (packet : Nat) : List ArpPendingRequest → Rx (List ArpPendingRequest)
  | [] => pure []
  | arpReq :: requests => do
      let spa ← read32 (packet + 14)
      if arpReq.TPA = spa then
        let sha ← readBytes (packet + 8) 6
        let ipaddr ← read32 (packet + 14)
        let newArpEntry : ArpEntry := { etherAddr := sha, ipaddr }
        modify fun s => { s with tables := { s.tables with
          arpTableHead := newArpEntry :: s.tables.arpTableHead
          arpFinished := { arpReq with answer := some newArpEntry, finished := true } ::
            s.tables.arpFinished } }
        pure requests
      else
        let pending ← arpFulfil packet requests
        pure (arpReq :: pending)

/-- `case OPER_REPLY` of `arp_rx_packet`. -/
def arpReplied (packet : Nat) : Rx Unit := do
  let tha ← readBytes (packet + 18) 6
  if tha = etherAddr then
    let s ← get
    let pending ← arpFulfil packet s.tables.arpPendingRequests
    modify fun s => { s with tables := { s.tables with arpPendingRequests := pending } }

/-- `arp_rx_packet`. -/
def arpRxPacket : Rx Unit := do
  let packet ← curData
  setHandler .drop
  arpSwapEndian packet
  let htype ← read16 packet
  if htype = 1 then
    let oper ← read16 (packet + 6)
    if oper = 1 then arpRequest packet
    else if oper = 2 then arpReplied packet

/-- `ip4_swap_endian`. -/
def ip4SwapEndian (iphdr : Nat) : Rx Unit := do
  swapEndian16 (iphdr + 2)
  swapEndian16 (iphdr + 4)
  swapEndian32 (iphdr + 12)
  swapEndian32 (iphdr + 16)

/-- Memory after `ip4_swap_endian`. -/
def ip4Swapped (memory : Bytes) (iphdr : Nat) : Bytes :=
  swap32 (swap32 (swap16 (swap16 memory (iphdr + 2)) (iphdr + 4)) (iphdr + 12)) (iphdr + 16)

/-- `ihl * 4`, from the low half of the first byte of an IPv4 header. -/
def ihlBytes (byte : UInt8) : UInt32 :=
  (byte &&& 0xf).toUInt32 * 4

/-- `ipv4_rx_packet`. -/
def ipv4RxPacket : Rx Unit := do
  let header ← curData
  ip4SwapEndian header
  let ihl ← read8 header
  advance (ihlBytes ihl)
  let ttl ← read8 (header + 8)
  if ttl = 0 then setHandler .drop
  else
    let dstIp ← read32 (header + 16)
    if dstIp ≠ ourIpAddress then setHandler .drop
    else
      let srcIp ← read32 (header + 12)
      modify fun s => { s with pkt := { s.pkt with ip4Info := { srcIp, dstIp } } }
      let protocol ← read8 (header + 9)
      if protocol = ipProtoTcp then setHandler .tcp
      else if protocol = ipProtoUdp then setHandler .udp
      else setHandler .drop

/-- `udp_swap_endian`. -/
def udpSwapEndian (header : Nat) : Rx Unit := do
  swapEndian16 (header + 2)
  swapEndian16 (header + 4)

/-- `no_bytes_to_copy` for one listener: the rest of its buffer, or the payload
where that is shorter. -/
def UdpListener.noBytesToCopy (listener : UdpListener) (udpPayloadSz : UInt32) : UInt32 :=
  let userBufSz := listener.dstBufSz.toUInt32 - listener.dstBufPtr.toUInt32
  if udpPayloadSz < userBufSz then udpPayloadSz else userBufSz

/-- A listener after a copy of `bytes`. -/
def UdpListener.append (listener : UdpListener) (bytes : List UInt8) : UdpListener :=
  { listener with
    received := listener.received ++ bytes
    dstBufPtr := listener.dstBufPtr + UInt16.ofNat bytes.length }

/-- The copy of the payload to a listener on the port of the packet. -/
def udpCopy (udpPayload : Nat) (udpPayloadSz : UInt32) (dstPort : UInt16) (i : UdpListener) :
    Rx UdpListener :=
  if i.port = dstPort then
    i.append <$> readBytes udpPayload (i.noBytesToCopy udpPayloadSz).toNat
  else pure i

/-- The loop of `udp_rx_packet` over the listeners. -/
def udpDeliver (header udpPayload : Nat) (udpPayloadSz : UInt32) :
    List UdpListener → Rx (List UdpListener)
  | [] => pure []
  | i :: listeners => do
      let dstPort ← read16 (header + 2)
      let i ← udpCopy udpPayload udpPayloadSz dstPort i
      let rest ← udpDeliver header udpPayload udpPayloadSz listeners
      pure (i :: rest)

/-- `udp_rx_packet`. -/
def udpRxPacket : Rx Unit := do
  let header ← curData
  advance 8
  let udpPayload ← curData
  let udpPayloadSz ← curDataLength
  udpSwapEndian header
  setHandler .drop
  let s ← get
  let listeners ← udpDeliver header udpPayload udpPayloadSz s.tables.udpRxRequests
  modify fun s => { s with tables := { s.tables with udpRxRequests := listeners } }

/-- `tcp_swap_endian`. -/
def tcpSwapEndian (header : Nat) : Rx Unit := do
  swapEndian16 header
  swapEndian16 (header + 2)
  swapEndian32 (header + 4)
  swapEndian32 (header + 8)
  swapEndian16 (header + 14)
  swapEndian16 (header + 16)
  swapEndian16 (header + 18)

/-- `data_offset * 4`, from the high half of byte 12 of a TCP header. -/
def dataOffsetBytes (byte : UInt8) : UInt32 :=
  (byte >>> 4).toUInt32 * 4

/-- The fields of a swapped TCP header. -/
def tcpHeaderAt (memory : Bytes) (header : Nat) : TcpHeader :=
  let offset := (memory (header + 12)).toBitVec
  let flags := (memory (header + 13)).toBitVec
  { sourcePort := load16 memory header
    destPort := load16 memory (header + 2)
    seqN := load32 memory (header + 4)
    ackN := load32 memory (header + 8)
    reserved0 := offset.setWidth 4
    dataOffset := (offset >>> 4).setWidth 4
    fin := flags.getLsbD 0
    syn := flags.getLsbD 1
    rst := flags.getLsbD 2
    psh := flags.getLsbD 3
    ack := flags.getLsbD 4
    urg := flags.getLsbD 5
    ece := flags.getLsbD 6
    cwr := flags.getLsbD 7
    windowSz := load16 memory (header + 14)
    checksum := load16 memory (header + 16)
    urgPtr := load16 memory (header + 18) }

/-- Read a swapped TCP header. -/
def readTcpHeader (header : Nat) : Rx TcpHeader := do
  touch header 20
  fun s => (tcpHeaderAt s.pkt.memory header, s)

/-- The number of payload bytes that the TCB selected for the segment copies. -/
def tcpCopied (tcbHead : List Tcb) (srcIp : UInt32) (incoming : TcpHeader) (dataLen : UInt32) :
    UInt32 :=
  match (findTcb tcbHead srcIp incoming).bind fun index => tcbHead[index]? with
  | some t =>
      if t.state = .established ∧ dataLen ≤ t.rxBuf.curCapacity then dataLen else 0
  | none => 0

/-- `tcp_rx_packet` from the search for the TCB to the end. -/
def tcpDeliver (incoming : TcpHeader) (data : Nat) (dataLen : UInt32) : Rx Unit := do
  let s ← get
  let srcIp := s.pkt.ip4Info.srcIp
  touch data (tcpCopied s.tables.tcbHead srcIp incoming dataLen).toNat
  match rxSegment s.tables.tcbHead srcIp incoming (fun offset => s.pkt.memory (data + offset))
      dataLen with
  | none => modify fun s => { s with stopped := true }
  | some outcome =>
      modify fun s => { s with tables := { s.tables with
        tcbHead := outcome.tcbHead
        tcpSent := s.tables.tcpSent ++ outcome.sent } }

/-- `tcp_rx_packet`. -/
def tcpRxPacket : Rx Unit := do
  let header ← curData
  let offset ← read8 (header + 12)
  advance (dataOffsetBytes offset)
  let data ← curData
  let dataLen ← curDataLength
  tcpSwapEndian header
  setHandler .drop
  let incoming ← readTcpHeader header
  tcpDeliver incoming data dataLen

/-- `resolve_pkt_protocol` and the call of `rx_pkt`.  All five protocols are
registered at start-up. -/
def rxPkt : ProtocolType → Rx Unit
  | .ethernet => ethernetRxPkt
  | .ipv4 => ipv4RxPacket
  | .udp => udpRxPacket
  | .tcp => tcpRxPacket
  | .arp => arpRxPacket
  | .drop => setHandler .drop

/-- The stack after the handler of its packet. -/
def Stack.handle (s : Stack) : Stack :=
  ((rxPkt s.pkt.handler).run s).2

/-- The inner loop of `rx_task`: what each handler leaves, until one drops the
packet or stops. -/
def rxLoop : Nat → Stack → List Stack
  | 0, _ => []
  | fuel + 1, s =>
      let after := s.handle
      after :: if after.pkt.handler = .drop ∨ after.stopped then [] else rxLoop fuel after

/-- `packet_create` and `packet_inject` by the driver. -/
def inject (tables : Tables) (memory : Bytes) (frameLen : UInt32) (stale : Ipv4PktInfo) :
    Stack where
  pkt := { packetCreate memory frameLen stale with handler := .ethernet }
  tables := tables
  stopped := false

/-- `rx_task` on one received frame.  No frame passes more than three
handlers. -/
def rxTask (tables : Tables) (memory : Bytes) (frameLen : UInt32) (stale : Ipv4PktInfo) :
    List Stack :=
  rxLoop 3 (inject tables memory frameLen stale)

end Lpc17xx.Protocol
