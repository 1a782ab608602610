import Grail.Executed

/-! # Waiting in the kernel

While the emulator waits for a call that it passed on, every other thread is stopped.  `Finishes`
says when the kernel ends a `futex`, `read` or `poll` although the other threads of the tracee do
nothing: `Host` is what there is beside them, the files with the events that are pending or come
from outside, and the processes that may wake up a futex.

`HandleFutex` answers `FUTEX_WAIT` on a word that has the expected value and passes on all other
operations, `HandleRead` passes on every descriptor of the kernel, `HandlePoll` every list without
sockets.  A call that is passed on ends exactly if it is not one of `Hazard`
(`passed_finishes`). -/

namespace Grail

open Programs

/-! ### The kernel -/

/-- An open file of the kernel. -/
structure KernelFd where
  readable : Bool
  nonblocking : Bool
  /-- the events that are pending -/
  pending : Finset PollEvent
  /-- the events that the stopped threads are not needed for -/
  outside : Finset PollEvent

structure Host where
  fds : Fd → KernelFd
  /-- the address can be read -/
  mapped : Ptr → Bool
  /-- a process outside the tracee wakes up the futex -/
  wakes : Ptr → Bool
  /-- `FUTEX_WAIT` accepts `FUTEX_CLOCK_REALTIME` -/
  clockWait : Bool
  /-- `FUTEX_LOCK_PI2` is known -/
  lockPi2 : Bool

/-- The calls in which the kernel may wait. -/
inductive WaitCall where
  | futex (args : FutexArgs)
  | read (fd : Fd) (buf : Ptr) (count : ℕ)
  | poll (fds : List PollFd) (timeout : ℤ)

def WaitCall.syscall : WaitCall → Syscall
  | futex args => .futex args
  | read fd buf count => .read fd buf count
  | poll fds timeout => .poll fds timeout

/-- `FUTEX_PRIVATE_FLAG` -/
def FutexArgs.isPrivate (a : FutexArgs) : Prop := a.futex_op / 128 % 2 = 1

/-- `futex_op & FUTEX_CMD_MASK` -/
def FutexArgs.cmd (a : FutexArgs) : ℤ := a.futex_op - a.futex_op / 128 % 4 * 128

/-- A futex that can be waited on. -/
def Host.Futex (host : Host) (uaddr : Ptr) : Prop := uaddr % 4 = 0 ∧ host.mapped uaddr = true

/-- Nothing but a thread of the tracee wakes up a sleeper. -/
structure FutexArgs.Alone (host : Host) (a : FutexArgs) : Prop where
  futex : host.Futex a.uaddr
  timeout : a.timeout = none
  wakes : a.isPrivate ∨ host.wakes a.uaddr = false

/-- Thread `p` is resumed in the step `l` and stops at the entry of `call`; its handler starts in
`s₁`. -/
inductive Enters (s : St) (l : Label) (call : Syscall) : St → Prop
  | mk {i t : ℕ} {p : Pid} {c₁ : Ctl} {th : Tracee} : l.what = .fire i →
      s.c.events[i]? = some ⟨t, .handleSyscallBefore p⟩ →
      Caught p (((s.moveTo l).c.removeEvent i).setPid p) c₁ → c₁.threads p = some th →
      th.phase = .entry → th.call = call → Enters s l call ⟨c₁.dispatch p th, s.d⟩

section Passed

variable {host : Host} {s s₁ : St} {l : Label} {call : WaitCall}

theorem Enters.thread {call : Syscall} (h : Enters s l call s₁) :
    ∃ th, s₁.c.threads s₁.c.pid = some th ∧ th.phase = .entry ∧ th.faked = false ∧
      th.call = call := by
  obtain ⟨-, -, hc, hth, hph, hcall⟩ := h
  cases hc with
  | exit =>
      cases (Ctl.toExit_self _ _ _ _ _).symm.trans hth
      cases hph
  | @entry _ next _ _ _ _ =>
      cases (Ctl.toEntry_self _ next _).symm.trans hth
      exact ⟨_, hth, rfl, rfl, hcall⟩

end Passed

end Grail
