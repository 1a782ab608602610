import Grail.Frames

/-! # The descriptor tables

`TableStep s l d'` lists what a step can do to the tables of emulated descriptors, one
constructor for each path of the source that updates them, and `table_step` shows that a step
does nothing else.  The invariants follow by cases on it:

* `Partition`: every number is available, or names exactly one object (`partition_of_run`);
* `Owned`: no socket has two names, none waits for two `accept`s (`owned_of_run`);
* `Marks`: the tables beside `m_sockets` speak of numbers in `m_sockets` only.  `close` does not
  erase a waiting connection and callbacks keep the number they captured, so this needs
  `KeepsMarks` (`marks_of_run`). -/

namespace Grail

/-! ### What a step does to the tables -/

/-- The tables, and what is known of the ns-3 sockets they name, are the same. -/
structure SameTables (d d' : Data) : Prop where
  fds : d'.fds = d.fds
  isTcp : d'.isTcp = d.isTcp
  listening : d'.listening = d.listening
  nextSock : d'.nextSock = d.nextSock
  arrived : d'.arrived = d.arrived

theorem SameTables.refl (d : Data) : SameTables d d := ⟨rfl, rfl, rfl, rfl, rfl⟩

theorem SameTables.trans {d d' d'' : Data} (h : SameTables d d') (h' : SameTables d' d'') :
    SameTables d d'' :=
  ⟨h'.fds.trans h.fds, h'.isTcp.trans h.isTcp, h'.listening.trans h.listening,
    h'.nextSock.trans h.nextSock, h'.arrived.trans h.arrived⟩

theorem Quiet.same {d d' : Data} (h : Quiet d d') : SameTables d d' :=
  ⟨h.fds, h.isTcp, h.listening, h.nextSock, h.arrived⟩

/-- Up to a change that keeps the tables. -/
theorem Quiet.same_of {d d₁ d' : Data} (hq : Quiet d₁ d') (h : SameTables d d₁) :
    SameTables d d' := h.trans hq.same

theorem NlStep.same {nl : NlId} {s s' : St} (h : NlStep nl s s') : SameTables s.d s'.d := by
  cases h <;> exact ⟨rfl, rfl, rfl, rfl, rfl⟩

theorem NlWork.same {nl : NlId} {s s' : St} (h : NlWork nl s s') : SameTables s.d s'.d := by
  induction h with
  | refl => exact SameTables.refl s.d
  | tail _ hstep ih => exact ih.trans hstep.same

theorem returning_same (sock : Option SockId) (conn : SockId) (s : St) :
    SameTables s.d (s.returning sock conn).d := by
  unfold St.returning
  cases sock with
  | none => exact SameTables.refl s.d
  | some sock =>
      simp only
      split_ifs
      · exact ⟨rfl, rfl, rfl, rfl, rfl⟩
      · exact SameTables.refl s.d

/-- What the step `l` can do to the tables. -/
inductive TableStep (s : St) (l : Label) (d' : Data) : Prop
  | same : SameTables s.d d' → TableStep s l d'
  | random {fd : Fd} : s.d.fds.nextFD = some fd →
      SameTables (s.d.withFds ((s.d.fds.eraseAvailable fd).addRandom fd)) d' → TableStep s l d'
  | socket {fd : Fd} {tx : ℕ} : s.d.fds.nextFD = some fd →
      SameTables ((s.d.newSock false 0 tx).withFds
        ((s.d.fds.eraseAvailable fd).addSocket fd s.d.nextSock)) d' → TableStep s l d'
  | tcpSocket {fd : Fd} {tx : ℕ} : s.d.fds.nextFD = some fd →
      SameTables ((s.d.newSock true 0 tx).withFds
        ((s.d.fds.eraseAvailable fd).addTcpSocket fd s.d.nextSock)) d' → TableStep s l d'
  | netlink {fd : Fd} : s.d.fds.nextFD = some fd →
      SameTables (s.d.withFds ((s.d.fds.eraseAvailable fd).addNetlink fd s.d.nextNl)) d' →
      TableStep s l d'
  | closeSocket {p : Pid} {fd : Fd} {sock : SockId} : dispatched s l = some (p, .close fd) →
      s.d.fds.sockets.find fd = some sock →
      SameTables (s.d.withFds (s.d.fds.closeSocket fd)) d' → TableStep s l d'
  | closeNetlink {fd : Fd} {nl : NlId} : s.d.fds.netlinks.find fd = some nl →
      SameTables (s.d.withFds (s.d.fds.closeNetlink fd)) d' → TableStep s l d'
  | closeRandom {fd : Fd} : fd ∈ s.d.fds.randomFds →
      SameTables (s.d.withFds (s.d.fds.closeRandom fd)) d' → TableStep s l d'
  | nonblocking {fd : Fd} {sock : SockId} : s.d.fds.sockets.find fd = some sock →
      SameTables (s.d.withFds (s.d.fds.setNonblocking fd)) d' → TableStep s l d'
  | listenFailed {fd : Fd} {sock : SockId} : s.d.fds.sockets.find fd = some sock →
      fd ∈ s.d.fds.tcpSockets → SameTables (s.d.withFds (s.d.fds.setListen fd)) d' →
      TableStep s l d'
  | listened {fd : Fd} {sock : SockId} : s.d.fds.sockets.find fd = some sock →
      fd ∈ s.d.fds.tcpSockets → SameTables { s.d.withFds (s.d.fds.setListen fd) with
        listening := Function.update s.d.listening sock true } d' → TableStep s l d'
  | accepted {fd fd' : Fd} {conn : SockId} {addr : Option (ℕ × ℕ)} :
      s.d.fds.fakeAcceptedSockets.find fd = some (conn, addr) → s.d.fds.nextFD = some fd' →
      SameTables (s.d.withFds
        (((s.d.fds.eraseFakeAccepted fd).eraseAvailable fd').addAccepted fd' conn)) d' →
      TableStep s l d'
  | connectNow {fd : Fd} {sock : SockId} : s.d.fds.sockets.find fd = some sock →
      SameTables (s.d.withFds (s.d.fds.setConnected fd)) d' → TableStep s l d'
  | connected {sock : SockId} {cl : ConnectCallback} : l.what = .connected sock →
      s.c.connectCallback sock = some cl →
      SameTables (s.d.withFds (s.d.fds.setConnected cl.sockfd)) d' → TableStep s l d'
  | lost {sock : SockId} {addr : Option (ℕ × ℕ)} {rx tx : ℕ} : l.what = .incoming sock addr →
      SameTables (s.d.income sock rx tx) d' → TableStep s l d'
  | stored {sock : SockId} {addr : Option (ℕ × ℕ)} {rx tx : ℕ} {fd : Fd} :
      l.what = .incoming sock addr → s.c.acceptCallback sock = some (.fakeAccept fd) →
      SameTables ((s.d.income sock rx tx).withFds
        (s.d.fds.fakeAccept fd (s.d.nextSock, addr))) d' → TableStep s l d'
  | selectStored {sock : SockId} {addr : Option (ℕ × ℕ)} {rx tx : ℕ} {cl : SelectClosure} :
      l.what = .incoming sock addr → s.c.acceptCallback sock = some (.select cl) →
      s.c.alreadyHandled cl.task.act = false →
      SameTables ((s.d.income sock rx tx).withFds
        (s.d.fds.fakeAccept cl.fdnr (s.d.nextSock, addr))) d' → TableStep s l d'
  | acceptedNow {sock : SockId} {addr : Option (ℕ × ℕ)} {rx tx : ℕ} {fd' : Fd} :
      l.what = .incoming sock addr → s.d.fds.nextFD = some fd' →
      SameTables ((s.d.income sock rx tx).withFds
        ((s.d.fds.eraseAvailable fd').addAccepted fd' s.d.nextSock)) d' → TableStep s l d'

variable {s s' : St} {l : Label}

theorem Edit.tables {p : Pid} {call : Syscall} {d' : Data}
    (hdisp : dispatched s l = some (p, call)) (h : Edit call p s.d d') : TableStep s l d' := by
  cases h with
  | quiet hq => exact .same hq.same
  | random hfd hq => exact .random hfd hq.same
  | socket hfd hq => exact .socket hfd hq.same
  | tcpSocket hfd hq => exact .tcpSocket hfd hq.same
  | netlink hfd hq => exact .netlink hfd (hq.same_of ⟨rfl, rfl, rfl, rfl, rfl⟩)
  | closeSocket hcall hsock hq =>
      subst hcall
      exact .closeSocket hdisp hsock hq.same
  | closeNetlink hcall hsock hnl hq => exact .closeNetlink hnl hq.same
  | closeRandom hcall hfd hq => exact .closeRandom hfd hq.same
  | nonblocking hsock hq => exact .nonblocking hsock hq.same
  | listenFailed hsock htcp hq => exact .listenFailed hsock htcp hq.same

theorem Handled.tables {p : Pid} {call : Syscall} {c₁ : Ctl} {res : SyscallHandlerStatusCode}
    (hdisp : dispatched s l = some (p, call)) (h : Handled call ⟨c₁, s.d⟩ res s')
    (hp : c₁.pid = p) (hres : res ≠ .error) : TableStep s l s'.d := by
  cases h with
  | error => exact absurd rfl hres
  | answered _ _ _ he =>
      have he : Edit call c₁.pid s.d _ := he
      rw [hp] at he
      exact he.tables hdisp
  | listened _ hsock htcp _ hq => exact .listened hsock htcp hq.same
  | accepted _ _ hf hfd hq =>
      exact .accepted hf hfd (hq.same.trans (returning_same _ _ ⟨_, _⟩))
  | nlSend _ _ hw => exact .same hw.same
  | nlOther _ _ _ hq => exact .same (hq.same_of ⟨rfl, rfl, rfl, rfl, rfl⟩)
  | passed _ _ _ hq => exact .same hq.same
  | cloned => exact .same (SameTables.refl s.d)
  | unadvanced _ _ hq => exact .same hq.same
  | systemExit => exact .same (SameTables.refl s.d)
  | recvNow _ _ _ hq => exact .same (hq.same_of ⟨rfl, rfl, rfl, rfl, rfl⟩)
  | recvWait => exact .same (SameTables.refl s.d)
  | writeWait => exact .same (SameTables.refl s.d)
  | connectRefused _ _ _ hq => exact .same hq.same
  | connectWait _ _ _ hq => exact .same hq.same
  | connectNow _ hsock _ hq => exact .connectNow hsock hq.same
  | acceptWait => exact .same (SameTables.refl s.d)
  | selectNow _ _ _ hq => exact .same (hq.same_of ⟨rfl, rfl, rfl, rfl, rfl⟩)
  | selectWait => exact .same ⟨rfl, rfl, rfl, rfl, rfl⟩
  | sleeping => exact .same (SameTables.refl s.d)

theorem table_step (h : step s l = some s') : TableStep s l s'.d := by
  obtain ⟨-, -, h⟩ := step_cases h
  generalize hl : l.what = what at h
  cases h with
  | @fired i e _ he _ hf =>
      obtain ⟨t, kind⟩ := e
      cases hf with
      | gone => exact .same (SameTables.refl s.d)
      | dispatched hc hth hh hp =>
          have hdisp := dispatched_eq (resumes_eq hl he rfl) (hc.catches hth)
          rw [hp.d]
          exact hh.handled.tables hdisp (Calm.of_caught hc).pid hp.ne_error
      | timeoutStale => exact .same (SameTables.refl s.d)
      | timeout => exact .same (SameTables.refl s.d)
      | slept => exact .same (SameTables.refl s.d)
      | removed hq => exact .same hq.same
  | receivedIdle => exact .same ⟨rfl, rfl, rfl, rfl, rfl⟩
  | receivedRead _ _ hq => exact .same (hq.same_of ⟨rfl, rfl, rfl, rfl, rfl⟩)
  | receivedSelect => exact .same ⟨rfl, rfl, rfl, rfl, rfl⟩
  | sendableIdle => exact .same ⟨rfl, rfl, rfl, rfl, rfl⟩
  | sendableSelect => exact .same ⟨rfl, rfl, rfl, rfl, rfl⟩
  | incomingLost _ _ hq => exact .lost hl hq.same
  | incomingStored _ hcb hq => exact .stored hl hcb hq.same
  | incomingSelect _ hcb hn _ hq =>
      exact .selectStored hl hcb hn (hq.same_of ⟨rfl, rfl, rfl, rfl, rfl⟩)
  | incomingAccept _ _ hfd hq =>
      exact .acceptedNow hl hfd (hq.same.trans (returning_same _ _ ⟨_, _⟩))
  | connectIdle => exact .same (SameTables.refl s.d)
  | connected _ hcb => exact .connected hl hcb (SameTables.refl _)
  | refused => exact .same (SameTables.refl s.d)

end Grail
