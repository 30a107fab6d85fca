import Lpc17xx.Cbuf.Fifo
import Lpc17xx.Transition.Labelled

/-!
# One circular buffer, two tasks

`rx_task` pushes and the application pops, on one processor and with nothing masked, so
either can be preempted by the other after any step.  The write pointer belongs to the
one and the read pointer to the other; both change `free_space`, and `-=` and `+=` load
it first and store it later.  A byte is copied, and its pointer moved on, in one step,
since the other task looks at neither.
-/

namespace Lpc17xx.Cbuf

open Lpc17xx.Ring
open Lpc17xx.Transition

/-- Where a call of `circular_buf_push` is: before its test, with bytes left to copy
(and when none is left, before it loads `free_space`), or before it stores what it has
computed from the loaded value. -/
inductive Pusher where
  | idle
  | test (data : List UInt8) (len : UInt32)
  | copy (rest : List UInt8) (len : UInt32)
  | store (len : UInt32) (loaded : UInt32)
  deriving DecidableEq, Repr

/-- Where a call of `circular_buf_pop` is. -/
inductive Popper where
  | idle
  | test (len : UInt32)
  | copy (rest : Nat) (len : UInt32)
  | store (len : UInt32) (loaded : UInt32)
  deriving DecidableEq, Repr

/-- The buffer and the two tasks.  `pushed` are the bytes copied in so far and `popped`
those copied out, oldest first. -/
structure Shared where
  cbuf : CircularBuf
  pusher : Pusher
  popper : Popper
  pushed : List UInt8
  popped : List UInt8

/-- A call of either function, or the next step of the call under way. -/
inductive SharedEvent where
  | push (data : List UInt8)
  | pop (len : UInt32)
  | pusher
  | popper

namespace Shared

/-- `circular_buf_init`, on whatever the heap block held before. -/
def start (capacity : UInt32) (block : List UInt8) : Shared where
  cbuf := circularBufInit capacity block
  pusher := .idle
  popper := .idle
  pushed := []
  popped := []

/-- The next step of `circular_buf_push`. -/
def pusherStep (s : Shared) : Option Shared :=
  match s.pusher with
  | .idle => none
  | .test data len =>
      some { s with pusher := if s.cbuf.freeSpace < len then .idle else .copy data len }
  | .copy (byte :: rest) len =>
      some { s with
        cbuf := s.cbuf.pushByte byte
        pusher := .copy rest len
        pushed := s.pushed ++ [byte] }
  | .copy [] len => some { s with pusher := .store len s.cbuf.freeSpace }
  | .store len loaded =>
      some { s with cbuf := { s.cbuf with freeSpace := loaded - len }, pusher := .idle }

/-- The next step of `circular_buf_pop`. -/
def popperStep (s : Shared) : Option Shared :=
  match s.popper with
  | .idle => none
  | .test len =>
      some { s with
        popper := if s.cbuf.bufSz - s.cbuf.freeSpace < len then .idle else .copy len.toNat len }
  | .copy (rest + 1) len =>
      some { s with
        cbuf := s.cbuf.popByte.2
        popper := .copy rest len
        popped := s.popped ++ [s.cbuf.popByte.1] }
  | .copy 0 len => some { s with popper := .store len s.cbuf.freeSpace }
  | .store len loaded =>
      some { s with cbuf := { s.cbuf with freeSpace := loaded + len }, popper := .idle }

/-- One event.  The length of the data is a `size_t`. -/
def step : Step Shared SharedEvent
  | s, .push data =>
      if s.pusher = .idle ∧ data.length < 2 ^ 32 then
        some { s with pusher := .test data (UInt32.ofNat data.length) }
      else none
  | s, .pop len => if s.popper = .idle then some { s with popper := .test len } else none
  | s, .pusher => s.pusherStep
  | s, .popper => s.popperStep

/-! ## Undisturbed calls -/

section Undisturbed

variable {s : Shared} {len : UInt32}

/-- The copying loop of a push. -/
theorem run_pusher_copy (rest : List UInt8) (here : s.pusher = .copy rest len) :
    run step s (List.replicate rest.length .pusher) =
      some { s with
        cbuf := s.cbuf.pushLoop rest
        pusher := .copy [] len
        pushed := s.pushed ++ rest } := by
  induction rest generalizing s with
  | nil =>
      simp only [List.length_nil, List.replicate_zero, run_nil, CircularBuf.pushLoop,
        List.append_nil, ← here]
  | cons byte rest ih =>
      have copied : step s .pusher = some { s with
          cbuf := s.cbuf.pushByte byte
          pusher := .copy rest len
          pushed := s.pushed ++ [byte] } := by
        simp only [step, pusherStep, here]
      rw [List.length_cons, List.replicate_succ, run_cons, copied, Option.bind_some, ih rfl]
      simp only [CircularBuf.pushLoop, List.append_assoc, List.singleton_append]

/-- Without preemption the steps of a push are `circular_buf_push`. -/
theorem run_pusher {data : List UInt8} (here : s.pusher = .test data len)
    (length : data.length = len.toNat) :
    ∃ steps pushed, run step s (List.replicate steps .pusher) =
      some { s with
        cbuf := s.cbuf.circularBufPush (fun offset => data.getD offset 0) len
        pusher := .idle
        pushed := pushed } := by
  by_cases full : s.cbuf.freeSpace < len
  · refine ⟨1, s.pushed, ?_⟩
    rw [CircularBuf.circularBufPush_of_lt full]
    simp only [List.replicate_one, run_cons, step, pusherStep, here, if_pos full,
      Option.bind_some, run_nil]
  · refine ⟨1 + (data.length + 2), s.pushed ++ data, ?_⟩
    have tested : run step s (List.replicate 1 .pusher) =
        some { s with pusher := .copy data len } := by
      simp only [List.replicate_one, run_cons, step, pusherStep, here, if_neg full,
        Option.bind_some, run_nil]
    have copied := @run_pusher_copy { s with pusher := .copy data len } len data rfl
    have bytes : bytesAt (fun offset => data.getD offset 0) len.toNat = data := by
      rw [← length]
      exact bytesAt_getD data 0
    rw [List.replicate_add, List.replicate_add]
    apply run_append tested
    apply run_append copied
    simp only [CircularBuf.circularBufPush, if_neg full, bytes]
    rfl

/-- The copying loop of a pop. -/
theorem run_popper_copy (rest : Nat) (here : s.popper = .copy rest len) :
    run step s (List.replicate rest .popper) =
      some { s with
        cbuf := (s.cbuf.popLoop rest).2
        popper := .copy 0 len
        popped := s.popped ++ (s.cbuf.popLoop rest).1 } := by
  induction rest generalizing s with
  | zero =>
      simp only [List.replicate_zero, run_nil, CircularBuf.popLoop, List.append_nil, ← here]
  | succ rest ih =>
      have copied : step s .popper = some { s with
          cbuf := s.cbuf.popByte.2
          popper := .copy rest len
          popped := s.popped ++ [s.cbuf.popByte.1] } := by
        simp only [step, popperStep, here]
      rw [List.replicate_succ, run_cons, copied, Option.bind_some, ih rfl]
      simp only [CircularBuf.popLoop, List.append_assoc, List.singleton_append]

/-- Without preemption the steps of a pop are `circular_buf_pop`. -/
theorem run_popper (here : s.popper = .test len) :
    ∃ steps, run step s (List.replicate steps .popper) =
      some { s with
        cbuf := (s.cbuf.circularBufPop len).2
        popper := .idle
        popped := s.popped ++ (s.cbuf.circularBufPop len).1 } := by
  by_cases short : s.cbuf.bufSz - s.cbuf.freeSpace < len
  · refine ⟨1, ?_⟩
    simp only [List.replicate_one, run_cons, step, popperStep, here, if_pos short,
      Option.bind_some, run_nil, CircularBuf.circularBufPop, List.append_nil]
  · refine ⟨1 + (len.toNat + 2), ?_⟩
    have tested : run step s (List.replicate 1 .popper) =
        some { s with popper := .copy len.toNat len } := by
      simp only [List.replicate_one, run_cons, step, popperStep, here, if_neg short,
        Option.bind_some, run_nil]
    have copied := @run_popper_copy { s with popper := .copy len.toNat len } len len.toNat rfl
    rw [List.replicate_add, List.replicate_add]
    apply run_append tested
    apply run_append copied
    simp only [CircularBuf.circularBufPop, if_neg short]
    rfl

end Undisturbed

end Shared

end Lpc17xx.Cbuf
