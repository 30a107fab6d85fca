import Lpc17xx.Net.ConnectList

/-!
# What a failed `tcp_connect` leaves behind

The list of TCBs is what it was before the call.  The heap is not: once everything is
drained, it holds what it held before, and one receive buffer for each call that has
returned `NULL`.
-/

namespace Lpc17xx.Net

open Lpc17xx.Arp
open Lpc17xx.Heap (SoundHeap linkedHeap)
open Lpc17xx.Heap.HeapState (linkedPlace)
open Lpc17xx.Memory
open Lpc17xx.Protocol
open Lpc17xx.Tcp
open Lpc17xx.Transition

namespace Connecting

variable {H B : Type} [DecidableEq B] {mem : Allocator H B} {address : B → Nat}
  {start last : Connecting H B}

/-- Between two calls the thread has no block. -/
theorem Leaves.takes {rxBufs lost : Multiset B} {entries : List B}
    (leaves : Leaves mem start last rxBufs lost entries) (before : start.call = .outside)
    (returned : last.call = .outside) :
    State.Takes mem start.net last.net (rxBufs + lost) entries := by
  refine ⟨?_, leaves.arpTable⟩
  intro rest holds
  have whole : Holds (live mem) owned start (0 + rest) := by
    change start.net.live mem = start.net.owned + start.call.blocks + _
    rw [before, show start.net.live mem = _ from holds]
    change _ = start.net.owned + 0 + _
    rw [add_zero]
  have left : last.net.live mem = last.net.owned + last.call.blocks + (rxBufs + lost + rest) :=
    leaves.passes rest whole
  rw [returned] at left
  change last.net.live mem = last.net.owned + 0 + _ at left
  rwa [add_zero] at left

/-- Each call that fails leaves a receive buffer.  Nothing else is left, unless an ARP
packet is lost. -/
def Leftovers (mem : Allocator H B) (start last : Connecting H B) (failures answers : Nat)
    (quiet : Prop) : Prop :=
  ∃ (rxBufs lost : Multiset B) (entries : List B),
    rxBufs.card = failures ∧ (lost = 0 ↔ quiet) ∧ entries.length = answers ∧
      last.net.standing mem + start.net.others =
        start.net.resident mem + entries + last.net.others + (rxBufs + lost)

/-- Where nobody else touches the list, it is in the end what it was, but for the TCBs that
calls have returned. -/
def KeepsList (mem : Allocator H B) (address : B → Nat) (start last : Connecting H B)
    (events : List (ConnectEvent B)) : Prop :=
  (∀ place ∈ start.places, ∃ block ∈ start.net.others, address block = place) →
    Guarded (step mem address) (HandsOff address) start events →
      ∃ opened, last.places = opened ++ start.places ∧
        opened.length = tally (step mem address) (opens address) start events

theorem keepsList_run (apart : Function.Injective address) {events : List (ConnectEvent B)}
    (accounted : start.net.Accounted mem) (before : start.call = .outside)
    (executed : run (step mem address) start events = some last)
    (returned : last.call = .outside) : KeepsList mem address start last events := by
  intro housed handsOff
  have list : Listed mem address start.places start := by
    refine ⟨?_, housed, ?_, ?_⟩
    · rw [before]
      rfl
    · change start.net.owned + start.call.blocks ≤ start.net.live mem
      rw [before]
      exact (add_zero start.net.owned).symm ▸ accounted
    · rw [before]
      trivial
  rcases list.run apart handsOff executed with ⟨opened, listed, count⟩
  refine ⟨opened, ?_, count⟩
  rw [listed.listed, returned]
  rfl

end Connecting

/-- From every state that is accounted for, in every run that begins and ends outside
`tcp_connect`, whatever everybody else does, once all transmissions are drained: if a
call has returned `NULL` on the way, the heap does not hold what it held before.  It
holds a receive buffer more for each such call, and so as many blocks at least as calls
have failed.  The list of TCBs is as it was. -/
theorem failed_connect_leaks {H B : Type} [DecidableEq B] (mem : Allocator H B)
    (address : B → Nat) (apart : Function.Injective address) (start last : Connecting H B)
    (events : List (ConnectEvent B)) (accounted : start.net.Accounted mem)
    (before : start.call = .outside)
    (executed : run (Connecting.step mem address) start events = some last)
    (returned : last.call = .outside) (drained : last.net.Drained)
    (failed :
      0 < tally (Connecting.step mem address) (Connecting.failures address) start events) :
    ¬State.Releases mem start.net last.net
        (tally (Connecting.step mem address) Connecting.answered start events) ∧
      Connecting.Leftovers mem start last
        (tally (Connecting.step mem address) (Connecting.failures address) start events)
        (tally (Connecting.step mem address) Connecting.answered start events)
        (Guarded (Connecting.step mem address) Connecting.NoArpLoss start events) ∧
      tally (Connecting.step mem address) (Connecting.failures address) start events ≤
        (mem.live last.net.heap).card ∧
      Connecting.KeepsList mem address start last events := by
  rcases Multiset.le_iff_exists_add.mp accounted with ⟨rest, holds⟩
  rcases Connecting.accounts_run executed with
    ⟨rxBufs, lost, entries, leaves, count, losses, answers⟩
  have takes := leaves.takes before returned
  refine ⟨?_, ⟨rxBufs, lost, entries, count, losses, answers,
    State.balance_of_takes holds takes drained⟩, ?_,
    Connecting.keepsList_run apart accounted before executed returned⟩
  · rw [← answers, State.releases_iff_lost holds takes drained]
    intro nothing
    have none := congrArg Multiset.card nothing
    rw [Multiset.card_add, count, Multiset.card_zero] at none
    omega
  · have live : last.net.live mem = last.net.owned + (rxBufs + lost + rest) := by
      apply takes.passes rest
      rw [zero_add]
      exact holds
    calc
      tally (Connecting.step mem address) (Connecting.failures address) start events
      _ = rxBufs.card := count.symm
      _ ≤ (last.net.live mem).card := by
          rw [live]
          simp only [Multiset.card_add]
          omega
      _ = (mem.live last.net.heap).card := Finset.card_val _

theorem isSome_entryBlock : (linkedHeap.getMem idle.heap 20).isSome = true := by
  decide +kernel

/-- The block of an entry of the ARP table, and the heap with it. -/
def entryBlock : Nat × SoundHeap linkedPlace :=
  (linkedHeap.getMem idle.heap 20).get isSome_entryBlock

/-- A host that knows the address of its peer. -/
def resolved : Connecting (SoundHeap linkedPlace) Nat where
  net :=
    { idle with
      heap := entryBlock.2
      arpTable := [entryBlock.1]
      tables :=
        { emptyTables with
          arpTableHead := [{ etherAddr := [0, 1, 2, 3, 4, 9], ipaddr := 0xC0A80007 }] } }
  call := .outside

/-- The segment `RST`, `ACK` with which the peer refuses the connection. -/
def refusalBytes : List UInt8 :=
  [0, 1, 2, 3, 4, 5, 0, 1, 2, 3, 4, 9, 0x08, 0x00,
    0x45, 0, 0, 40, 0, 0, 0, 0, 64, 6, 0, 0, 192, 168, 0, 7, 192, 168, 0, 171,
    0, 80, 0xff, 0x4b, 0, 0, 0, 0, 0, 0, 4, 1, 0x50, 0x14, 0, 0, 0, 0, 0, 0]

/-- A call up to the wait, the transmission of its SYN, the refusal, and the return. -/
def refusedCall : List (ConnectEvent Nat) :=
  [.enter 80 0xC0A80007, .initRxBuf (List.replicate 127 0) List.length_replicate, .thread,
    .thread, .thread, .net .ip4Pop, .net .ip4Xmit, .net .etherPop, .net .etherXmit,
    .net (received refusalBytes), .net .rxPop, .net .rxHandle, .net .rxHandle, .net .rxHandle,
    .thread]

theorem accounted_resolved : resolved.net.Accounted linkedHeap := by
  change resolved.net.owned ≤ resolved.net.live linkedHeap
  decide +kernel

theorem isSome_refusedCall :
    (run (Connecting.step linkedHeap id) resolved refusedCall).isSome = true := by
  decide +kernel

/-- The host after the call. -/
def refused : Connecting (SoundHeap linkedPlace) Nat :=
  (run (Connecting.step linkedHeap id) resolved refusedCall).get isSome_refusedCall

theorem run_refusedCall :
    run (Connecting.step linkedHeap id) resolved refusedCall = some refused :=
  (Option.some_get isSome_refusedCall).symm

/-- One call has failed, and nothing is under way.  No TCB is listed, and the heap is not what
it was. -/
theorem refused_checked :
    (refused.call = .outside ∧ refused.net.Drained ∧
      0 < tally (Connecting.step linkedHeap id) (Connecting.failures id) resolved refusedCall) ∧
      refused.net.tables.tcbHead.isEmpty ∧ refused.net.others = resolved.net.others ∧
      refused.net.arpTable = resolved.net.arpTable ∧
      linkedHeap.live refused.net.heap ≠ linkedHeap.live resolved.net.heap := by
  decide +kernel

theorem failed_connect_leaks_refused :
    ¬State.Releases linkedHeap resolved.net refused.net
      (tally (Connecting.step linkedHeap id) Connecting.answered resolved refusedCall) := by
  rcases refused_checked.1 with ⟨returned, drained, failed⟩
  exact (failed_connect_leaks linkedHeap id Function.injective_id resolved refused refusedCall
    accounted_resolved rfl run_refusedCall returned drained failed).1

/-- After the call `tcb_head` is what it was, and one block more is live. -/
theorem refused_keeps_block :
    ∃ last, run (Connecting.step linkedHeap id) resolved refusedCall = some last ∧
      last.call = .outside ∧ last.net.Drained ∧
      last.net.tables.tcbHead = resolved.net.tables.tcbHead ∧
      last.net.others = resolved.net.others ∧ last.net.arpTable = resolved.net.arpTable ∧
      linkedHeap.live last.net.heap ≠ linkedHeap.live resolved.net.heap := by
  rcases refused_checked with ⟨⟨returned, drained, _⟩, unlisted, others, arpTable, live⟩
  exact ⟨refused, run_refusedCall, returned, drained, List.isEmpty_iff.mp unlisted, others,
    arpTable, live⟩

end Lpc17xx.Net
