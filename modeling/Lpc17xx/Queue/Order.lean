import Lpc17xx.Queue.Core

/-!
# The order of packets

`list_add` puts an entry in front, and `list_pop` takes it from there: a queue
with several entries gives the newest first.  The order is kept as long as each
pop finds its entry alone, in whatever order producers and tasks run.
-/

namespace Lpc17xx.Queue

open Lpc17xx.Link
open Lpc17xx.Protocol
open Lpc17xx.Transition

/-- The frame of a call of `ip4_xmit_packet`, when its next hop is resolved. -/
def frameOf (resolveAddress : UInt32 → Option (List UInt8)) (txPkt : Entry Ip4TxPkt) :
    Option (Option Nat × List UInt8) :=
  (ip4DoXmitPacket resolveAddress txPkt.item).map fun packet =>
    (some txPkt.call, etherXmitPayload packet)

namespace Queues

variable (resolveAddress : UInt32 → Option (List UInt8))

/-- The frames given to `emac_xmit_frame` for calls of `ip4_xmit_packet`. -/
def ip4Transmitted (s : Queues) : List (Option Nat × List UInt8) :=
  s.transmitted.filter fun frame => frame.1.isSome

/-- Packets have been handed to the handlers in the order in which they were
injected, and the frames of the calls of `ip4_xmit_packet` with a resolved next
hop have been given to the driver in the order of the calls. -/
structure InOrder (s : Queues) : Prop where
  handed : s.handed <+: s.injected
  transmitted : s.ip4Transmitted <+: s.requested.filterMap (frameOf resolveAddress)

/-- The task that pops finds one entry only.  Entries of ARP in `ether_tx_queue`
do not count. -/
def FindsOne (s : Queues) : QueueEvent → Prop
  | .rxPop => s.pktRxQ.length = 1
  | .ip4Pop => s.ip4TxQueue.length = 1
  | .etherPop => ∀ txdPkt rest, s.etherTxQueue = txdPkt :: rest → txdPkt.call.isSome →
      ∀ other ∈ rest, other.call = none
  | _ => True

/-- The entries on their way from `ip4_tx_task` to the driver, the first to
leave in front. -/
def etherWaiting (s : Queues) : List EtherEntry :=
  (s.txdPkt.toList ++ s.etherTxQueue.reverse).filter fun entry => entry.call.isSome

/-- The frames they become. -/
def etherFrames (s : Queues) : List (Option Nat × List UInt8) :=
  s.etherWaiting.map fun entry => (entry.call, etherXmitPayload entry.item)

/-- The calls of `ip4_xmit_packet` that `ip4_tx_task` has still to send. -/
def ip4Waiting (s : Queues) : List (Entry Ip4TxPkt) :=
  s.txPkt.toList ++ s.ip4TxQueue.reverse

/-- Everything that entered has left or is on its way, in order. -/
structure Flowing (s : Queues) : Prop where
  rx : s.handed ++ s.pktRxQ.reverse = s.injected
  tx : s.ip4Transmitted ++ s.etherFrames ++ s.ip4Waiting.filterMap (frameOf resolveAddress) =
    s.requested.filterMap (frameOf resolveAddress)

/-- The frames of the calls of `ip4_xmit_packet`, wherever they are. -/
def frames (s : Queues) : List (Option Nat × List UInt8) :=
  s.ip4Transmitted ++ s.etherFrames ++ s.ip4Waiting.filterMap (frameOf resolveAddress)

variable {resolveAddress} {s target : Queues}

/-! A pop takes the entry in front, for a task that holds none. -/

theorem rxPop_eq_some (popped : s.rxPop = some target) :
    ∃ pkt rest, s.rxPkt = none ∧ s.pktRxQ = pkt :: rest ∧
      target = { s with pktRxQ := rest, rxPkt := some pkt, handed := s.handed ++ [pkt] } := by
  rcases Option.ite_none_right_eq_some.mp popped with ⟨idle, popped⟩
  cases queue : s.pktRxQ with
  | nil =>
      rw [queue] at popped
      contradiction
  | cons pkt rest =>
      rw [queue] at popped
      cases popped
      exact ⟨pkt, rest, Option.isNone_iff_eq_none.mp idle, rfl, rfl⟩

theorem ip4Pop_eq_some (popped : s.ip4Pop = some target) :
    ∃ txPkt rest, s.txPkt = none ∧ s.ip4TxQueue = txPkt :: rest ∧
      target = { s with ip4TxQueue := rest, txPkt := some txPkt } := by
  rcases Option.ite_none_right_eq_some.mp popped with ⟨idle, popped⟩
  cases queue : s.ip4TxQueue with
  | nil =>
      rw [queue] at popped
      contradiction
  | cons txPkt rest =>
      rw [queue] at popped
      cases popped
      exact ⟨txPkt, rest, Option.isNone_iff_eq_none.mp idle, rfl, rfl⟩

theorem etherPop_eq_some (popped : s.etherPop = some target) :
    ∃ txdPkt rest, s.txdPkt = none ∧ s.etherTxQueue = txdPkt :: rest ∧
      target = { s with etherTxQueue := rest, txdPkt := some txdPkt } := by
  rcases Option.ite_none_right_eq_some.mp popped with ⟨idle, popped⟩
  cases queue : s.etherTxQueue with
  | nil =>
      rw [queue] at popped
      contradiction
  | cons txdPkt rest =>
      rw [queue] at popped
      cases popped
      exact ⟨txdPkt, rest, Option.isNone_iff_eq_none.mp idle, rfl, rfl⟩

/-! What each step but the pops does to these frames. -/

theorem frames_ip4XmitPacket (packet : Ip4TxPkt) :
    (s.ip4XmitPacket packet).frames resolveAddress =
      s.frames resolveAddress ++
        [⟨s.requested.length, packet⟩].filterMap (frameOf resolveAddress) := by
  have waiting : (s.ip4XmitPacket packet).ip4Waiting =
      s.ip4Waiting ++ [⟨s.requested.length, packet⟩] := by
    simp [Queues.ip4XmitPacket, ip4Waiting, listAdd]
  rw [frames, waiting, List.filterMap_append, ← List.append_assoc]
  rfl

/-- An entry sent by `ip4_tx_task` moves from the end of one queue to the other;
one without a next hop was never counted. -/
theorem frames_ip4Xmit (sent : s.ip4Xmit resolveAddress = some target) :
    target.frames resolveAddress = s.frames resolveAddress := by
  rcases Option.map_eq_some_iff.mp sent with ⟨txPkt, held, rfl⟩
  have waiting : s.ip4Waiting = txPkt :: s.ip4TxQueue.reverse := by
    rw [ip4Waiting, held]
    rfl
  change _ = s.ip4Transmitted ++ s.etherFrames ++ s.ip4Waiting.filterMap (frameOf resolveAddress)
  rw [waiting]
  cases resolved : ip4DoXmitPacket resolveAddress txPkt.item with
  | none =>
      have frame : frameOf resolveAddress txPkt = none := by rw [frameOf, resolved]; rfl
      rw [List.filterMap_cons_none frame]
      rfl
  | some packet =>
      have frame : frameOf resolveAddress txPkt =
          some (some txPkt.call, etherXmitPayload packet) := by rw [frameOf, resolved]; rfl
      have moved : etherFrames { etherTx s ⟨some txPkt.call, packet⟩ with txPkt := none } =
          s.etherFrames ++ [(some txPkt.call, etherXmitPayload packet)] := by
        simp [etherFrames, etherWaiting, etherTx, listAdd]
      rw [List.filterMap_cons_some frame, frames, moved, ← List.append_assoc, List.append_assoc]
      rfl

theorem frames_arpTx (packet : EtherTxPkt) :
    (s.etherTx ⟨none, packet⟩).frames resolveAddress = s.frames resolveAddress := by
  have waiting : (s.etherTx ⟨none, packet⟩).etherFrames = s.etherFrames := by
    simp [etherFrames, etherWaiting, etherTx, listAdd]
  rw [frames, waiting]
  rfl

theorem frames_etherXmit (sent : s.etherXmit = some target) :
    target.frames resolveAddress = s.frames resolveAddress := by
  rcases Option.map_eq_some_iff.mp sent with ⟨txdPkt, held, rfl⟩
  cases counted : txdPkt.call.isSome with
  | false => simp [frames, ip4Transmitted, etherFrames, etherWaiting, ip4Waiting, held, counted]
  | true => simp [frames, ip4Transmitted, etherFrames, etherWaiting, ip4Waiting, held, counted]

theorem Flowing.inOrder (flowing : s.Flowing resolveAddress) : s.InOrder resolveAddress where
  handed := ⟨_, flowing.rx⟩
  transmitted := ⟨_, (List.append_assoc _ _ _).symm.trans flowing.tx⟩

theorem flowing_empty : empty.Flowing resolveAddress where
  rx := rfl
  tx := rfl

theorem Flowing.packetInject (flowing : s.Flowing resolveAddress) (frame : List UInt8) :
    (s.packetInject frame).Flowing resolveAddress where
  rx := by
    change s.handed ++ (listAdd _ s.pktRxQ).reverse = s.injected ++ [_]
    rw [listAdd, List.reverse_cons, ← List.append_assoc, flowing.rx]
  tx := flowing.tx

theorem Flowing.rxPop (flowing : s.Flowing resolveAddress) (alone : s.pktRxQ.length = 1)
    (popped : s.rxPop = some target) : target.Flowing resolveAddress := by
  rcases rxPop_eq_some popped with ⟨pkt, rest, _, queue, rfl⟩
  have last : rest = [] := by simpa [queue] using alone
  have rx := flowing.rx
  rw [queue, last] at rx
  exact ⟨by rw [last]; exact (List.append_nil _).trans rx, flowing.tx⟩

theorem Flowing.ip4XmitPacket (flowing : s.Flowing resolveAddress) (packet : Ip4TxPkt) :
    (s.ip4XmitPacket packet).Flowing resolveAddress where
  rx := flowing.rx
  tx := by
    change (s.ip4XmitPacket packet).frames resolveAddress =
      (s.requested ++ [_]).filterMap (frameOf resolveAddress)
    rw [frames_ip4XmitPacket, List.filterMap_append, ← flowing.tx]
    rfl

theorem Flowing.ip4Pop (flowing : s.Flowing resolveAddress) (alone : s.ip4TxQueue.length = 1)
    (popped : s.ip4Pop = some target) : target.Flowing resolveAddress := by
  rcases ip4Pop_eq_some popped with ⟨txPkt, rest, idle, queue, rfl⟩
  have last : rest = [] := by simpa [queue] using alone
  have waiting : ip4Waiting { s with ip4TxQueue := rest, txPkt := some txPkt } = s.ip4Waiting := by
    rw [ip4Waiting, ip4Waiting, queue, idle, last]
    rfl
  have tx := flowing.tx
  rw [← waiting] at tx
  exact ⟨flowing.rx, tx⟩

theorem Flowing.ip4Xmit (flowing : s.Flowing resolveAddress)
    (sent : s.ip4Xmit resolveAddress = some target) : target.Flowing resolveAddress := by
  have tx := (frames_ip4Xmit sent).trans flowing.tx
  rcases Option.map_eq_some_iff.mp sent with ⟨txPkt, held, rfl⟩
  split at tx
  · exact ⟨flowing.rx, tx⟩
  · exact ⟨flowing.rx, tx⟩

theorem Flowing.arpTx (flowing : s.Flowing resolveAddress) (packet : EtherTxPkt) :
    (s.etherTx ⟨none, packet⟩).Flowing resolveAddress where
  rx := flowing.rx
  tx := (frames_arpTx packet).trans flowing.tx

theorem Flowing.etherPop (flowing : s.Flowing resolveAddress) (alone : s.FindsOne .etherPop)
    (popped : s.etherPop = some target) : target.Flowing resolveAddress := by
  rcases etherPop_eq_some popped with ⟨txdPkt, rest, idle, queue, rfl⟩
  refine ⟨flowing.rx, ?_⟩
  have same : etherWaiting { s with etherTxQueue := rest, txdPkt := some txdPkt } =
      s.etherWaiting := by
    rw [etherWaiting, etherWaiting, queue, idle]
    cases counted : txdPkt.call.isSome with
    | false => simp [counted]
    | true =>
        have others := alone txdPkt rest queue counted
        have none_ : rest.filter (fun entry => entry.call.isSome) = [] := by
          rw [List.filter_eq_nil_iff]
          intro other member
          rw [others other member]
          exact Bool.false_ne_true
        simp [counted, List.filter_reverse, none_]
  have tx := flowing.tx
  rw [etherFrames, ← same] at tx
  exact tx

theorem Flowing.etherXmit (flowing : s.Flowing resolveAddress) (sent : s.etherXmit = some target) :
    target.Flowing resolveAddress := by
  have tx := (frames_etherXmit sent).trans flowing.tx
  rcases Option.map_eq_some_iff.mp sent with ⟨txdPkt, held, rfl⟩
  exact ⟨flowing.rx, tx⟩

theorem Flowing.step {event : QueueEvent} (flowing : s.Flowing resolveAddress)
    (alone : s.FindsOne event) (stepped : step resolveAddress s event = some target) :
    target.Flowing resolveAddress := by
  cases event with
  | packetInject frame =>
      cases stepped
      exact flowing.packetInject frame
  | rxPop => exact flowing.rxPop alone stepped
  | rxDrop =>
      rcases Option.map_eq_some_iff.mp stepped with ⟨_, _, rfl⟩
      exact ⟨flowing.rx, flowing.tx⟩
  | ip4XmitPacket packet =>
      cases stepped
      exact flowing.ip4XmitPacket packet
  | ip4Pop => exact flowing.ip4Pop alone stepped
  | ip4Xmit => exact flowing.ip4Xmit stepped
  | arpTx packet =>
      cases stepped
      exact flowing.arpTx packet
  | etherPop => exact flowing.etherPop alone stepped
  | etherXmit => exact flowing.etherXmit stepped

end Queues

/-- In every run in which each pop finds its entry alone, packets reach the
handlers and frames the driver in order, whatever the producers and tasks do in
between. -/
theorem queues_inOrder (resolveAddress : UInt32 → Option (List UInt8)) (events : List QueueEvent)
    (alone : Guarded (Queues.step resolveAddress) Queues.FindsOne Queues.empty events) :
    Along (Queues.step resolveAddress) (fun _ _ after => after.InOrder resolveAddress)
      Queues.empty events := by
  have kept (s : Queues) (event : QueueEvent) (target : Queues)
      (flowing : s.Flowing resolveAddress) (finds : s.FindsOne event)
      (stepped : Queues.step resolveAddress s event = some target) :
      target.Flowing resolveAddress := flowing.step finds stepped
  exact along_of_guarded kept (fun s event target flowing finds stepped =>
    (kept s event target flowing finds stepped).inOrder) Queues.flowing_empty alone

/-- A datagram of one byte for a host on the network. -/
def onePacket (byte : UInt8) : Ip4TxPkt where
  protocol := ipProtoUdp
  dstIp := 0xC0A80002
  payload := [byte]
  fits := Nat.le_of_ble_eq_true rfl

/-- A frame comes in, and two datagrams go out one after the other. -/
theorem queues_inOrder_example :
    Along (Queues.step fun _ => some [2, 0, 0, 0, 0, 2])
      (fun _ _ after => after.InOrder fun _ => some [2, 0, 0, 0, 0, 2]) Queues.empty
      [.packetInject [1], .rxPop, .ip4XmitPacket (onePacket 1), .ip4Pop, .ip4Xmit, .etherPop,
        .ip4XmitPacket (onePacket 2), .etherXmit] := by
  apply queues_inOrder
  rintro _ ⟨⟩
  refine ⟨trivial, ?_⟩
  rintro _ ⟨⟩
  refine ⟨rfl, ?_⟩
  rintro _ ⟨⟩
  refine ⟨trivial, ?_⟩
  rintro _ ⟨⟩
  refine ⟨rfl, ?_⟩
  rintro _ ⟨⟩
  refine ⟨trivial, ?_⟩
  rintro _ ⟨⟩
  constructor
  · rintro _ _ ⟨⟩ _ other member
    nomatch member
  · rintro _ ⟨⟩
    refine ⟨trivial, ?_⟩
    rintro _ ⟨⟩
    exact ⟨trivial, trivial⟩

/-- Two frames are injected before `rx_task` runs: it takes the second one
first. -/
theorem queues_not_inOrder_backlog :
    ¬ Along (Queues.step fun _ => none) (fun _ _ after => after.InOrder fun _ => none) Queues.empty
      [.packetInject [1], .packetInject [2], .rxPop] := by
  intro ordered
  rcases ordered _ rfl with ⟨_, one⟩
  rcases one _ rfl with ⟨_, two⟩
  rcases two _ rfl with ⟨popped, _⟩
  exact absurd popped.handed (by decide)

end Lpc17xx.Queue
