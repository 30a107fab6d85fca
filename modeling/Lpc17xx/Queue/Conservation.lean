import Lpc17xx.Queue.Order
import Mathlib.Data.List.Nodup
import Mathlib.Data.List.Range

/-!
# No packet is lost or sent twice

Whatever the order in which the queues give their entries back, each call of
`ip4_xmit_packet` with a resolved next hop is in exactly one place: waiting for
`ip4_tx_task`, waiting for `ether_tx_task`, or given to the driver as one frame.  The two
tasks empty their queues.
-/

namespace Lpc17xx.Queue

open Lpc17xx.Link
open Lpc17xx.Protocol
open Lpc17xx.Transition

namespace Queues

variable (resolveAddress : UInt32 → Option (List UInt8))

/-- The frames are those of the calls, and the calls are numbered as they came. -/
structure Conserved (s : Queues) : Prop where
  numbered : s.requested.map Entry.call = List.range s.requested.length
  frames : (s.frames resolveAddress).Perm (s.requested.filterMap (frameOf resolveAddress))

/-- Nothing is left for `ip4_tx_task` or for `ether_tx_task`. -/
structure Drained (s : Queues) : Prop where
  ip4TxQueue : s.ip4TxQueue = []
  txPkt : s.txPkt = none
  etherTxQueue : s.etherTxQueue = []
  txdPkt : s.txdPkt = none

variable {resolveAddress} {s target : Queues}

theorem Conserved.ip4XmitPacket (conserved : s.Conserved resolveAddress) (packet : Ip4TxPkt) :
    (s.ip4XmitPacket packet).Conserved resolveAddress := by
  constructor
  · change (s.requested ++ [_]).map Entry.call = List.range (s.requested ++ [_]).length
    rw [List.map_append, conserved.numbered, List.length_append, List.length_singleton,
      List.range_succ]
    rfl
  · change List.Perm _ ((s.requested ++ [_]).filterMap (frameOf resolveAddress))
    rw [frames_ip4XmitPacket, List.filterMap_append]
    exact conserved.frames.append_right _

theorem Conserved.ip4Pop (conserved : s.Conserved resolveAddress)
    (popped : s.ip4Pop = some target) : target.Conserved resolveAddress := by
  rcases ip4Pop_eq_some popped with ⟨txPkt, rest, idle, queue, rfl⟩
  have waiting : (txPkt :: rest.reverse).Perm s.ip4Waiting := by
    rw [ip4Waiting, queue, idle, List.reverse_cons]
    exact @List.perm_append_comm _ [txPkt] _
  exact ⟨conserved.numbered, ((waiting.filterMap _).append_left _).trans conserved.frames⟩

theorem Conserved.ip4Xmit (conserved : s.Conserved resolveAddress)
    (sent : s.ip4Xmit resolveAddress = some target) : target.Conserved resolveAddress := by
  have same := frames_ip4Xmit sent
  rcases Option.map_eq_some_iff.mp sent with ⟨txPkt, held, rfl⟩
  split at same
  · exact ⟨conserved.numbered, same ▸ conserved.frames⟩
  · exact ⟨conserved.numbered, same ▸ conserved.frames⟩

theorem Conserved.arpTx (conserved : s.Conserved resolveAddress) (packet : EtherTxPkt) :
    (s.etherTx ⟨none, packet⟩).Conserved resolveAddress where
  numbered := conserved.numbered
  frames := (frames_arpTx packet).symm ▸ conserved.frames

theorem Conserved.etherPop (conserved : s.Conserved resolveAddress)
    (popped : s.etherPop = some target) : target.Conserved resolveAddress := by
  rcases etherPop_eq_some popped with ⟨txdPkt, rest, idle, queue, rfl⟩
  have waiting : (etherWaiting { s with etherTxQueue := rest, txdPkt := some txdPkt }).Perm
      s.etherWaiting := by
    rw [etherWaiting, etherWaiting, queue, idle, List.reverse_cons]
    exact (@List.perm_append_comm _ [txdPkt] _).filter _
  exact ⟨conserved.numbered,
    (((waiting.map _).append_left _).append_right _).trans conserved.frames⟩

theorem Conserved.etherXmit (conserved : s.Conserved resolveAddress)
    (sent : s.etherXmit = some target) : target.Conserved resolveAddress := by
  have same := @frames_etherXmit resolveAddress _ _ sent
  rcases Option.map_eq_some_iff.mp sent with ⟨txdPkt, held, rfl⟩
  exact ⟨conserved.numbered, same ▸ conserved.frames⟩

theorem Conserved.step {event : QueueEvent} (conserved : s.Conserved resolveAddress)
    (stepped : step resolveAddress s event = some target) : target.Conserved resolveAddress := by
  cases event with
  | packetInject frame =>
      cases stepped
      exact ⟨conserved.numbered, conserved.frames⟩
  | rxPop =>
      rcases rxPop_eq_some stepped with ⟨_, _, _, _, rfl⟩
      exact ⟨conserved.numbered, conserved.frames⟩
  | rxDrop =>
      rcases Option.map_eq_some_iff.mp stepped with ⟨_, _, rfl⟩
      exact ⟨conserved.numbered, conserved.frames⟩
  | ip4XmitPacket packet =>
      cases stepped
      exact conserved.ip4XmitPacket packet
  | ip4Pop => exact conserved.ip4Pop stepped
  | ip4Xmit => exact conserved.ip4Xmit stepped
  | arpTx packet =>
      cases stepped
      exact conserved.arpTx packet
  | etherPop => exact conserved.etherPop stepped
  | etherXmit => exact conserved.etherXmit stepped

/-- The steps that the tasks have still to take, at most. -/
def stepsLeft (s : Queues) : Nat :=
  4 * s.ip4TxQueue.length + 3 * s.txPkt.toList.length + 2 * s.etherTxQueue.length +
    s.txdPkt.toList.length

end Queues

end Lpc17xx.Queue
