import Lpc17xx.Protocol.Confined

/-!
# Where the receive chain stays inside the frame

Every handler takes header lengths from the packet and subtracts them unchecked.
Each keeps the packet in the frame exactly when its own headers end in it; the
chain does exactly when the frame is as long as its nested headers claim.
-/

namespace Lpc17xx.Protocol

open Lpc17xx.Memory
open Lpc17xx.Tcp

section Ethernet

variable (s : Stack)

theorem ethernet_handler :
    (after ethernetRxPkt s).pkt.handler =
      if big16 s.pkt.memory (s.pkt.curData + 12) = etherTypeArp then .arp
      else if big16 s.pkt.memory (s.pkt.curData + 12) = etherTypeIp then .ipv4 else .drop := by
  rw [← load16_swap16]
  simp only [ethernetRxPkt, after_bind, after_ite, apply_ite Stack.pkt, apply_ite Packet.handler]
  rfl

theorem ethernet_memory :
    (after ethernetRxPkt s).pkt.memory = swap16 s.pkt.memory (s.pkt.curData + 12) := by
  simp only [ethernetRxPkt, after_bind, after_ite, after_setHandler, apply_ite Stack.pkt,
    apply_ite Packet.memory, ite_self]
  rfl

theorem ethernet_stopped : (after ethernetRxPkt s).stopped = s.stopped := by
  simp only [ethernetRxPkt, after_bind, after_ite, after_setHandler, apply_ite Stack.stopped,
    ite_self]
  rfl

theorem ethernet_tables : (after ethernetRxPkt s).tables = s.tables := by
  simp only [ethernetRxPkt, after_bind, after_ite, after_setHandler, apply_ite Stack.tables,
    ite_self]
  rfl

/-- What follows the move of the cursor. -/
theorem ethernet_after_advance (limit : Nat) (room : s.pkt.curData + 14 ≤ limit) :
    ConfinedStep limit (after (advance 14) s).pkt (after ethernetRxPkt s).pkt := by
  have rest : Confined limit (do
      swapEndian16 (s.pkt.curData + 12)
      let etherType ← read16 (s.pkt.curData + 12)
      if etherType = etherTypeArp then setHandler .arp
      else if etherType = etherTypeIp then setHandler .ipv4
      else setHandler .drop) := by
    refine .bind (.swapEndian16 (by omega)) fun _ => .bind (.read16 (by omega)) fun _ => ?_
    exact .ite (.setHandler _) (.ite (.setHandler _) (.setHandler _))
  exact rest (after (advance 14) s)

theorem ethernet_curData : (after ethernetRxPkt s).pkt.curData = s.pkt.curData + 14 :=
  (ethernet_after_advance s _ (Nat.le_refl _)).curData

theorem ethernet_inFrame_iff {len : Nat} (inside : InFrame len s.pkt) :
    InFrame len (after ethernetRxPkt s).pkt ↔ s.pkt.curData + 14 ≤ len := by
  constructor
  · intro kept
    rw [← ethernet_curData]
    exact kept.curData_le
  · intro room
    exact (ethernet_after_advance s len room).inFrame (inFrame_advance inside room)

end Ethernet

section Arp

variable (s : Stack)

theorem confined_arpSwapEndian {limit packet : Nat} (room : packet + 28 ≤ limit) :
    Confined limit (arpSwapEndian packet) := by
  refine .bind (.swapEndian16 (by omega)) fun _ => .bind (.swapEndian16 (by omega)) fun _ => ?_
  refine .bind (.swapEndian16 (by omega)) fun _ => .bind (.swapEndian32 (by omega)) fun _ => ?_
  exact .swapEndian32 (by omega)

theorem confined_arpRequest {limit packet : Nat} (room : packet + 28 ≤ limit) :
    Confined limit (arpRequest packet) := by
  refine .bind (.read32 (by omega)) fun _ => .ite ?_ (.pure _)
  refine .bind (.readBytes (by omega)) fun _ => .bind (.read32 (by omega)) fun _ => ?_
  exact .bind (.readBytes (by omega)) fun _ =>
    .modify (fun _ => rfl) (fun _ => rfl) (fun _ => rfl)

/-- By induction on the pending requests. -/
theorem confined_arpFulfil {limit packet : Nat} (room : packet + 28 ≤ limit)
    (requests : List ArpPendingRequest) : Confined limit (arpFulfil packet requests) := by
  induction requests with
  | nil => exact .pure _
  | cons arpReq requests ih =>
      refine .bind (.read32 (by omega)) fun _ => .ite ?_ (ih.bind fun _ => .pure _)
      refine .bind (.readBytes (by omega)) fun _ => .bind (.read32 (by omega)) fun _ => ?_
      exact .bind (.modify (fun _ => rfl) (fun _ => rfl) (fun _ => rfl)) fun _ => .pure _

theorem confined_arpReplied {limit packet : Nat} (room : packet + 28 ≤ limit) :
    Confined limit (arpReplied packet) := by
  refine .bind (.readBytes (by omega)) fun _ => .ite ?_ (.pure _)
  refine .bind .get fun _ => .bind (confined_arpFulfil room _) fun _ => ?_
  exact .modify (fun _ => rfl) (fun _ => rfl) (fun _ => rfl)

/-- `arp_rx_packet` once the packet is swapped. -/
def arpRest (packet : Nat) : Rx Unit := do
  let htype ← read16 packet
  if htype = 1 then
    let oper ← read16 (packet + 6)
    if oper = 1 then arpRequest packet
    else if oper = 2 then arpReplied packet

/-- It touches nothing behind the packet it expects. -/
theorem confined_arpRest {limit packet : Nat} (room : packet + 28 ≤ limit) :
    Confined limit (arpRest packet) := by
  refine .bind (.read16 (by omega)) fun _ => .ite ?_ (.pure _)
  refine .bind (.read16 (by omega)) fun _ => .ite (confined_arpRequest room) ?_
  exact .ite (confined_arpReplied room) (.pure _)

theorem arp_inFrame_iff {len : Nat} (inside : InFrame len s.pkt) :
    InFrame len (after arpRxPacket s).pkt ↔ s.pkt.curData + 28 ≤ len := by
  let swapped := after (arpSwapEndian s.pkt.curData) (after (setHandler .drop) s)
  have rest (limit : Nat) (room : s.pkt.curData + 28 ≤ limit) :
      ConfinedStep limit swapped.pkt (after arpRxPacket s).pkt :=
    confined_arpRest room swapped
  constructor
  · intro kept
    have touched : (⟨s.pkt.curData + 24, 4⟩ : Access) ∈ swapped.pkt.accesses := .head _
    exact kept.accesses _ ((rest _ (Nat.le_refl _)).mem touched)
  · intro room
    have dropped : InFrame len (after (setHandler .drop) s).pkt :=
      ⟨inside.accesses, inside.curData_le, inside.curDataLength⟩
    exact (rest len room).inFrame ((confined_arpSwapEndian room _).inFrame dropped)

/-- The handler of the packet. -/
abbrev handlerOf (s : Stack) : ProtocolType :=
  s.pkt.handler

theorem keeps_arpFulfil (packet : Nat) (requests : List ArpPendingRequest) :
    Keeps handlerOf (arpFulfil packet requests) := by
  induction requests with
  | nil => exact fun _ => rfl
  | cons arpReq requests ih =>
      refine .bind (fun _ => rfl) fun _ => .ite ?_ (.bind ih fun _ _ => rfl)
      exact fun _ => rfl

theorem keeps_arpReplied (packet : Nat) : Keeps handlerOf (arpReplied packet) := by
  refine .bind (fun _ => rfl) fun _ => .ite ?_ fun _ => rfl
  exact .bind (fun _ => rfl) fun _ => .bind (keeps_arpFulfil packet _) fun _ _ => rfl

theorem arp_handler : (after arpRxPacket s).pkt.handler = .drop := by
  have rest (packet : Nat) : Keeps handlerOf (arpRest packet) := by
    refine .bind (fun _ => rfl) fun _ => .ite ?_ fun _ => rfl
    refine .bind (fun _ => rfl) fun _ => .ite ?_ (.ite (keeps_arpReplied packet) fun _ => rfl)
    exact .bind (fun _ => rfl) fun _ => .ite (fun _ => rfl) fun _ => rfl
  exact rest s.pkt.curData (after (arpSwapEndian s.pkt.curData) (after (setHandler .drop) s))

end Arp

section Ipv4

variable (s : Stack)

/-- The part of `ipv4_rx_packet` before the cursor moves. -/
def ipv4Head (header : Nat) : Rx UInt8 := do
  ip4SwapEndian header
  read8 header

/-- The part of it after that. -/
def ipv4Rest (header : Nat) : Rx Unit := do
  let ttl ← read8 (header + 8)
  if ttl = 0 then setHandler .drop
  else
    let dstIp ← read32 (header + 16)
    if dstIp ≠ ourIpAddress then setHandler .drop
    else
      let srcIp ← read32 (header + 12)
      modify fun s => { s with pkt := { s.pkt with ip4Info := { srcIp, dstIp } } }
      let protocol ← read8 (header + 9)
      if protocol = ipProtoTcp then setHandler .tcp
      else if protocol = ipProtoUdp then setHandler .udp
      else setHandler .drop

theorem confined_ipv4Head {limit header : Nat} (room : header + 20 ≤ limit) :
    Confined limit (ipv4Head header) := by
  refine .bind (.bind (.swapEndian16 (by omega)) fun _ => ?_) fun _ => .read8 (by omega)
  refine .bind (.swapEndian16 (by omega)) fun _ => .bind (.swapEndian32 (by omega)) fun _ => ?_
  exact .swapEndian32 (by omega)

theorem ip4Swapped_of_outside {memory : Bytes} {iphdr other : Nat}
    (outside : other < iphdr + 2 ∨ iphdr + 6 ≤ other ∧ other < iphdr + 12 ∨ iphdr + 20 ≤ other) :
    ip4Swapped memory iphdr other = memory other := by
  unfold ip4Swapped
  rw [swap32_of_outside (by omega), swap32_of_outside (by omega), swap16_of_outside (by omega),
    swap16_of_outside (by omega)]

/-- The header length is read from a byte that the swaps leave alone. -/
theorem ipv4Head_value : (ipv4Head s.pkt.curData s).1 = s.pkt.memory s.pkt.curData :=
  ip4Swapped_of_outside (.inl (by omega))

/-- The length of the header at the cursor. -/
abbrev headerLen (s : Stack) : UInt32 :=
  ihlBytes (s.pkt.memory s.pkt.curData)

theorem ipv4_eq :
    after ipv4RxPacket s =
      after (ipv4Rest s.pkt.curData)
        (after (advance (headerLen s)) (after (ipv4Head s.pkt.curData) s)) := by
  rw [headerLen, ← ipv4Head_value]
  rfl

/-- What follows the move of the cursor. -/
theorem ipv4_after_advance (limit : Nat) (room : s.pkt.curData + 20 ≤ limit) :
    ConfinedStep limit
      (after (advance (headerLen s)) (after (ipv4Head s.pkt.curData) s)).pkt
      (after ipv4RxPacket s).pkt := by
  have rest : Confined limit (ipv4Rest s.pkt.curData) := by
    refine .bind (.read8 (by omega)) fun _ => .ite (.setHandler _) ?_
    refine .bind (.read32 (by omega)) fun _ => .ite (.setHandler _) ?_
    refine .bind (.read32 (by omega)) fun _ => ?_
    refine .bind (.modify (fun _ => rfl) (fun _ => rfl) (fun _ => rfl)) fun _ => ?_
    refine .bind (.read8 (by omega)) fun _ => .ite (.setHandler _) ?_
    exact .ite (.setHandler _) (.setHandler _)
  rw [ipv4_eq]
  exact rest _

theorem ipv4_curData :
    (after ipv4RxPacket s).pkt.curData = s.pkt.curData + (headerLen s).toNat :=
  (ipv4_after_advance s _ (Nat.le_refl _)).curData

/-- Once the header is swapped, memory and the run go on unchanged. -/
theorem ipv4_keeps {γ : Type} (field : Stack → γ)
    (reads : ∀ start size, Keeps field (touch start size))
    (handlers : ∀ handler, Keeps field (setHandler handler))
    (infos : ∀ info, Keeps field
      (modify fun s => { s with pkt := { s.pkt with ip4Info := info } } : Rx PUnit)) :
    field (after ipv4RxPacket s) =
      field (after (advance (headerLen s)) (after (ipv4Head s.pkt.curData) s)) := by
  have rest : Keeps field (ipv4Rest s.pkt.curData) := by
    refine .bind (.bind (reads _ _) fun _ _ => rfl) fun _ => .ite (handlers _) ?_
    refine .bind (.bind (reads _ _) fun _ _ => rfl) fun _ => .ite (handlers _) ?_
    refine .bind (.bind (reads _ _) fun _ _ => rfl) fun _ => .bind (infos _) fun _ => ?_
    refine .bind (.bind (reads _ _) fun _ _ => rfl) fun _ => .ite (handlers _) ?_
    exact .ite (handlers _) (handlers _)
  rw [ipv4_eq]
  exact rest _

theorem ipv4_memory :
    (after ipv4RxPacket s).pkt.memory = ip4Swapped s.pkt.memory s.pkt.curData :=
  ipv4_keeps s (fun s => s.pkt.memory) (fun _ _ _ => rfl) (fun _ _ => rfl) fun _ _ => rfl

theorem ipv4_stopped : (after ipv4RxPacket s).stopped = s.stopped :=
  ipv4_keeps s Stack.stopped (fun _ _ _ => rfl) (fun _ _ => rfl) fun _ _ => rfl

theorem ipv4_tables : (after ipv4RxPacket s).tables = s.tables :=
  ipv4_keeps s Stack.tables (fun _ _ _ => rfl) (fun _ _ => rfl) fun _ _ => rfl

/-- The destination address, in host order. -/
theorem load32_ip4Swapped {memory : Bytes} {iphdr : Nat} :
    load32 (ip4Swapped memory iphdr) (iphdr + 16) = big32 memory (iphdr + 16) := by
  rw [ip4Swapped, load32_swap32, big32_swap32_of_apart (by omega),
    big32_swap16_of_apart (by omega), big32_swap16_of_apart (by omega)]

theorem ipv4_handler :
    (after ipv4RxPacket s).pkt.handler =
      if s.pkt.memory (s.pkt.curData + 8) = 0 then .drop
      else if big32 s.pkt.memory (s.pkt.curData + 16) ≠ ourIpAddress then .drop
      else if s.pkt.memory (s.pkt.curData + 9) = ipProtoTcp then .tcp
      else if s.pkt.memory (s.pkt.curData + 9) = ipProtoUdp then .udp else .drop := by
  have ttl : ip4Swapped s.pkt.memory s.pkt.curData (s.pkt.curData + 8) =
      s.pkt.memory (s.pkt.curData + 8) := ip4Swapped_of_outside (by omega)
  have protocol : ip4Swapped s.pkt.memory s.pkt.curData (s.pkt.curData + 9) =
      s.pkt.memory (s.pkt.curData + 9) := ip4Swapped_of_outside (by omega)
  rw [← ttl, ← protocol, ← load32_ip4Swapped]
  simp only [ipv4RxPacket, after_bind, after_ite, apply_ite Stack.pkt, apply_ite Packet.handler]
  rfl

/-- The addresses are noted in host order. -/
theorem ipv4_ip4Info (ttl : s.pkt.memory (s.pkt.curData + 8) ≠ 0)
    (ours : big32 s.pkt.memory (s.pkt.curData + 16) = ourIpAddress) :
    (after ipv4RxPacket s).pkt.ip4Info =
      ⟨big32 s.pkt.memory (s.pkt.curData + 12), big32 s.pkt.memory (s.pkt.curData + 16)⟩ := by
  have source : load32 (ip4Swapped s.pkt.memory s.pkt.curData) (s.pkt.curData + 12) =
      big32 s.pkt.memory (s.pkt.curData + 12) := by
    rw [ip4Swapped, load32_swap32_of_apart (by omega), load32_swap32,
      big32_swap16_of_apart (by omega), big32_swap16_of_apart (by omega)]
  have hops : ip4Swapped s.pkt.memory s.pkt.curData (s.pkt.curData + 8) ≠ 0 := by
    rw [ip4Swapped_of_outside (by omega)]
    exact ttl
  rw [← load32_ip4Swapped] at ours
  rw [← source, ← load32_ip4Swapped]
  simp only [ipv4RxPacket, after_bind, after_ite, apply_ite Stack.pkt, apply_ite Packet.ip4Info,
    after_setHandler, ite_self]
  exact (if_neg hops).trans (if_neg (not_not_intro ours))

theorem ipv4_inFrame_iff {len : Nat} (inside : InFrame len s.pkt) :
    InFrame len (after ipv4RxPacket s).pkt ↔
      s.pkt.curData + 20 ≤ len ∧ s.pkt.curData + (headerLen s).toNat ≤ len := by
  constructor
  · intro kept
    have touched : (⟨s.pkt.curData + 16, 4⟩ : Access) ∈
        (after (advance (headerLen s)) (after (ipv4Head s.pkt.curData) s)).pkt.accesses :=
      .tail _ (.head _)
    have step := ipv4_after_advance s _ (Nat.le_refl _)
    refine ⟨kept.accesses _ (step.mem touched), ?_⟩
    rw [← ipv4_curData]
    exact kept.curData_le
  · rintro ⟨header, room⟩
    have head := (confined_ipv4Head header s).inFrame inside
    exact (ipv4_after_advance s len header).inFrame (inFrame_advance head room)

end Ipv4

section Udp

variable (s : Stack)

/-- No listener copies more than the payload. -/
theorem noBytesToCopy_le (listener : UdpListener) (udpPayloadSz : UInt32) :
    (listener.noBytesToCopy udpPayloadSz).toNat ≤ udpPayloadSz.toNat := by
  rw [← UInt32.le_iff_toNat_le]
  simp only [UdpListener.noBytesToCopy]
  split
  · exact UInt32.le_refl _
  · rename_i short
    exact UInt32.not_lt.mp short

/-- The rest of the buffer, or the payload where that is shorter. -/
theorem toNat_noBytesToCopy {listener : UdpListener} (udpPayloadSz : UInt32)
    (inside : listener.dstBufPtr.toNat ≤ listener.dstBufSz.toNat) :
    (listener.noBytesToCopy udpPayloadSz).toNat =
      min udpPayloadSz.toNat (listener.dstBufSz.toNat - listener.dstBufPtr.toNat) := by
  have rest : (listener.dstBufSz.toUInt32 - listener.dstBufPtr.toUInt32).toNat =
      listener.dstBufSz.toNat - listener.dstBufPtr.toNat := by
    rw [UInt32.toNat_sub_of_le, UInt16.toNat_toUInt32, UInt16.toNat_toUInt32]
    rw [UInt32.le_iff_toNat_le, UInt16.toNat_toUInt32, UInt16.toNat_toUInt32]
    exact inside
  simp only [UdpListener.noBytesToCopy]
  split
  · rename_i less
    rw [UInt32.lt_iff_toNat_lt, rest] at less
    exact (Nat.min_eq_left (Nat.le_of_lt less)).symm
  · rename_i notLess
    rw [UInt32.lt_iff_toNat_lt, rest] at notLess
    rw [rest, Nat.min_eq_right (Nat.le_of_not_lt notLess)]

theorem confined_udpCopy {limit udpPayload : Nat} {udpPayloadSz : UInt32}
    (payloadRoom : udpPayload + udpPayloadSz.toNat ≤ limit) (dstPort : UInt16)
    (listener : UdpListener) :
    Confined limit (udpCopy udpPayload udpPayloadSz dstPort listener) := by
  have copies := noBytesToCopy_le listener udpPayloadSz
  exact .ite (.map (.readBytes (by omega)) _) (.pure _)

/-- By induction on the listeners. -/
theorem confined_udpDeliver {limit header udpPayload : Nat} {udpPayloadSz : UInt32}
    (headerRoom : header + 4 ≤ limit) (payloadRoom : udpPayload + udpPayloadSz.toNat ≤ limit)
    (listeners : List UdpListener) :
    Confined limit (udpDeliver header udpPayload udpPayloadSz listeners) := by
  induction listeners with
  | nil => exact .pure _
  | cons listener listeners ih =>
      refine .bind (.read16 (by omega)) fun dstPort => ?_
      exact .bind (confined_udpCopy payloadRoom dstPort listener) fun _ => ih.bind fun _ => .pure _

/-- The loop does nothing but read, by induction on the listeners. -/
theorem keeps_udpDeliver {γ : Type} {field : Stack → γ}
    (reads : ∀ start size, Keeps field (touch start size)) (header udpPayload : Nat)
    (udpPayloadSz : UInt32) (listeners : List UdpListener) :
    Keeps field (udpDeliver header udpPayload udpPayloadSz listeners) := by
  have copy (dstPort : UInt16) (listener : UdpListener) :
      Keeps field (udpCopy udpPayload udpPayloadSz dstPort listener) :=
    .ite (.map (.bind (reads _ _) fun _ _ => rfl) _) fun _ => rfl
  induction listeners with
  | nil => exact fun _ => rfl
  | cons listener listeners ih =>
      refine .bind (.bind (reads _ _) fun _ _ => rfl) fun dstPort => ?_
      exact .bind (copy dstPort listener) fun _ => .bind ih fun _ _ => rfl

/-- `udp_rx_packet` once the cursor has moved and the header is swapped. -/
def udpRest (header udpPayload : Nat) (udpPayloadSz : UInt32) : Rx Unit := do
  let s ← get
  let listeners ← udpDeliver header udpPayload udpPayloadSz s.tables.udpRxRequests
  modify fun s => { s with tables := { s.tables with udpRxRequests := listeners } }

/-- What neither a read nor the new contents of the listeners touch, the rest keeps. -/
theorem keeps_udpRest {γ : Type} {field : Stack → γ}
    (reads : ∀ start size, Keeps field (touch start size))
    (listeners : ∀ udpRxRequests, Keeps field
      (modify fun s => { s with tables := { s.tables with udpRxRequests } }))
    (header udpPayload : Nat) (udpPayloadSz : UInt32) :
    Keeps field (udpRest header udpPayload udpPayloadSz) := by
  refine .bind (fun _ => rfl) fun _ => ?_
  exact .bind (keeps_udpDeliver reads header udpPayload udpPayloadSz _) listeners

theorem udp_eq :
    after udpRxPacket s =
      after (udpRest s.pkt.curData (s.pkt.curData + 8) (s.pkt.curDataLength - 8))
        (after (setHandler .drop)
          (after (udpSwapEndian s.pkt.curData) (after (advance 8) s))) :=
  rfl

/-- What follows the move of the cursor. -/
theorem udp_after_advance (limit : Nat) (headerRoom : s.pkt.curData + 6 ≤ limit)
    (payloadRoom : s.pkt.curData + 8 + (s.pkt.curDataLength - 8).toNat ≤ limit) :
    ConfinedStep limit (after (advance 8) s).pkt (after udpRxPacket s).pkt := by
  have swaps : Confined limit (udpSwapEndian s.pkt.curData) :=
    .bind (.swapEndian16 (by omega)) fun _ => .swapEndian16 (by omega)
  have rest : Confined limit
      (udpRest s.pkt.curData (s.pkt.curData + 8) (s.pkt.curDataLength - 8)) := by
    refine .bind .get fun _ => .bind (confined_udpDeliver (by omega) payloadRoom _) fun _ => ?_
    exact .modify (fun _ => rfl) (fun _ => rfl) (fun _ => rfl)
  rw [udp_eq]
  exact ((swaps _).trans (Confined.setHandler _ _)).trans (rest _)

theorem udp_curData : (after udpRxPacket s).pkt.curData = s.pkt.curData + 8 :=
  (udp_after_advance s (s.pkt.curData + 8 + (s.pkt.curDataLength - 8).toNat) (by omega)
    (Nat.le_refl _)).curData

theorem udp_curDataLength : (after udpRxPacket s).pkt.curDataLength = s.pkt.curDataLength - 8 :=
  (udp_after_advance s (s.pkt.curData + 8 + (s.pkt.curDataLength - 8).toNat) (by omega)
    (Nat.le_refl _)).curDataLength

theorem udp_handler : (after udpRxPacket s).pkt.handler = .drop := by
  rw [udp_eq]
  exact @keeps_udpRest _ handlerOf (fun _ _ _ => rfl) (fun _ _ => rfl) _ _ _ _

theorem udp_inFrame_iff {len : Nat} (inside : InFrame len s.pkt) :
    InFrame len (after udpRxPacket s).pkt ↔ s.pkt.curData + 8 ≤ len := by
  constructor
  · intro kept
    rw [← udp_curData]
    exact kept.curData_le
  · intro room
    have moved : InFrame len (after (advance 8) s).pkt := inFrame_advance inside room
    refine (udp_after_advance s len (by omega) ?_).inFrame moved
    have left := moved.curDataLength
    change (s.pkt.curDataLength - 8).toNat = len - (s.pkt.curData + 8) at left
    omega

end Udp

section Tcp

variable (s : Stack)

theorem tcpCopied_le (tcbHead : List Tcb) (srcIp : UInt32) (incoming : TcpHeader)
    (dataLen : UInt32) : (tcpCopied tcbHead srcIp incoming dataLen).toNat ≤ dataLen.toNat := by
  unfold tcpCopied
  split
  · split
    · exact Nat.le_refl _
    · exact Nat.zero_le _
  · exact Nat.zero_le _

theorem confined_tcpDeliver {limit data : Nat} {dataLen : UInt32} (incoming : TcpHeader)
    (room : data + dataLen.toNat ≤ limit) : Confined limit (tcpDeliver incoming data dataLen) := by
  refine .bind .get fun s => .bind (.touch ?_) fun _ => ?_
  · have copies := tcpCopied_le s.tables.tcbHead s.pkt.ip4Info.srcIp incoming dataLen
    omega
  · split
    · exact .modify (fun _ => rfl) (fun _ => rfl) (fun _ => rfl)
    · exact .modify (fun _ => rfl) (fun _ => rfl) (fun _ => rfl)

/-- The segment is delivered to the tables, not to the packet. -/
theorem keeps_tcpDeliver {γ : Type} {field : Packet → γ}
    (reads : ∀ start size, Keeps (fun s => field s.pkt) (touch start size)) (incoming : TcpHeader)
    (data : Nat) (dataLen : UInt32) :
    Keeps (fun s => field s.pkt) (tcpDeliver incoming data dataLen) := by
  refine .bind (fun _ => rfl) fun _ => .bind (reads _ _) fun _ => ?_
  split
  · exact fun _ => rfl
  · exact fun _ => rfl

theorem confined_tcpSwapEndian {limit header : Nat} (room : header + 20 ≤ limit) :
    Confined limit (tcpSwapEndian header) := by
  refine .bind (.swapEndian16 (by omega)) fun _ => .bind (.swapEndian16 (by omega)) fun _ => ?_
  refine .bind (.swapEndian32 (by omega)) fun _ => .bind (.swapEndian32 (by omega)) fun _ => ?_
  refine .bind (.swapEndian16 (by omega)) fun _ => .bind (.swapEndian16 (by omega)) fun _ => ?_
  exact .swapEndian16 (by omega)

/-- The length of the TCP header at the cursor. -/
abbrev tcpHeaderLen (s : Stack) : UInt32 :=
  dataOffsetBytes (s.pkt.memory (s.pkt.curData + 12))

/-- `tcp_rx_packet` with the cursor moved and the header swapped. -/
def tcpSwapped (s : Stack) : Stack :=
  after (setHandler .drop)
    (after (tcpSwapEndian s.pkt.curData)
      (after (advance (tcpHeaderLen s)) (after (read8 (s.pkt.curData + 12)) s)))

/-- The rest of it. -/
def tcpRest (header data : Nat) (dataLen : UInt32) : Rx Unit := do
  let incoming ← readTcpHeader header
  tcpDeliver incoming data dataLen

theorem tcp_eq :
    after tcpRxPacket s =
      after (tcpRest s.pkt.curData (s.pkt.curData + (tcpHeaderLen s).toNat)
        (s.pkt.curDataLength - tcpHeaderLen s)) (tcpSwapped s) :=
  rfl

theorem tcp_rest (limit : Nat) (headerRoom : s.pkt.curData + 20 ≤ limit)
    (payloadRoom : s.pkt.curData + (tcpHeaderLen s).toNat +
      (s.pkt.curDataLength - tcpHeaderLen s).toNat ≤ limit) :
    ConfinedStep limit (tcpSwapped s).pkt (after tcpRxPacket s).pkt := by
  have rest : Confined limit (tcpRest s.pkt.curData (s.pkt.curData + (tcpHeaderLen s).toNat)
      (s.pkt.curDataLength - tcpHeaderLen s)) :=
    .bind (.readTcpHeader headerRoom) fun incoming => confined_tcpDeliver incoming payloadRoom
  rw [tcp_eq]
  exact rest _

/-- The place where the payload is read, and a bound on everything touched. -/
theorem tcp_rest_reached :
    ∃ limit, ConfinedStep limit (tcpSwapped s).pkt (after tcpRxPacket s).pkt :=
  ⟨s.pkt.curData + 20 + (tcpHeaderLen s).toNat + (s.pkt.curDataLength - tcpHeaderLen s).toNat,
    tcp_rest s _ (by omega) (by omega)⟩

theorem tcp_curData :
    (after tcpRxPacket s).pkt.curData = s.pkt.curData + (tcpHeaderLen s).toNat := by
  rcases tcp_rest_reached s with ⟨limit, step⟩
  exact step.curData

theorem tcp_curDataLength :
    (after tcpRxPacket s).pkt.curDataLength = s.pkt.curDataLength - tcpHeaderLen s := by
  rcases tcp_rest_reached s with ⟨limit, step⟩
  exact step.curDataLength

theorem tcp_handler : (after tcpRxPacket s).pkt.handler = .drop := by
  have rest (header data : Nat) (dataLen : UInt32) :
      Keeps handlerOf (tcpRest header data dataLen) :=
    .bind (fun _ => rfl) fun incoming =>
      @keeps_tcpDeliver _ Packet.handler (fun _ _ _ => rfl) incoming data dataLen
  rw [tcp_eq]
  exact rest _ _ _ _

theorem tcp_inFrame_iff {len : Nat} (inside : InFrame len s.pkt) :
    InFrame len (after tcpRxPacket s).pkt ↔
      s.pkt.curData + 20 ≤ len ∧ s.pkt.curData + (tcpHeaderLen s).toNat ≤ len := by
  constructor
  · intro kept
    rcases tcp_rest_reached s with ⟨limit, step⟩
    have touched : (⟨s.pkt.curData + 18, 2⟩ : Access) ∈ (tcpSwapped s).pkt.accesses := .head _
    refine ⟨kept.accesses _ (step.mem touched), ?_⟩
    rw [← tcp_curData]
    exact kept.curData_le
  · rintro ⟨headerRoom, room⟩
    have read : InFrame len (after (read8 (s.pkt.curData + 12)) s).pkt :=
      ((Confined.read8 (by omega)) s).inFrame inside
    have moved : InFrame len (after (advance (tcpHeaderLen s)) _).pkt := inFrame_advance read room
    have swapped := (confined_tcpSwapEndian headerRoom _).inFrame moved
    refine (tcp_rest s len headerRoom ?_).inFrame
      ⟨swapped.accesses, swapped.curData_le, swapped.curDataLength⟩
    have left := moved.curDataLength
    change (s.pkt.curDataLength - tcpHeaderLen s).toNat =
      len - (s.pkt.curData + (tcpHeaderLen s).toNat) at left
    omega

end Tcp

end Lpc17xx.Protocol
