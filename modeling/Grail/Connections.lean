import Grail.Marks
import Grail.Executed

/-! # The connections of a listening socket

A connection reaches the tracee in one of two ways.  A blocking `accept` takes it from ns-3 when it
arrives; otherwise the callback of `listen` or of a `select` leaves it in `m_fakeAcceptedSockets`,
which has room for one connection for each descriptor, and the next `accept` takes it from there.

`Served`: the connections that arrived at the socket of a descriptor are those that `accept` has
returned, in the same order, and after them the one that waits.  A connection is lost if no callback
is installed or that of an earlier `select`, if another one waits, and if the thread of the `accept`
that is to be answered is not stopped in it; `Receives` says of a step that none of this happens
(`connections_of_run`). -/

namespace Grail

/-- The connection that waits for an `accept` on the descriptor. -/
def Fds.waiting (f : Fds) (fd : Fd) : List SockId :=
  ((f.fakeAcceptedSockets.find fd).map Prod.fst).toList

/-- The socket does not listen and no connection has arrived at it. -/
def Data.Unused (d : Data) (sock : SockId) : Prop :=
  d.listening sock = false ∧ d.arrived sock = [] ∧ d.returned sock = []

/-- An `accept` on `sock` returns the connection `conn`. -/
def Data.give (sock conn : SockId) (d : Data) : Data :=
  { d with returned := Function.update d.returned sock (d.returned sock ++ [conn]) }

/-- Every connection that arrived at a socket with a descriptor has been returned or is the last one
and waits. -/
structure Served (d : Data) : Prop where
  named {fd sock} : d.fds.sockets.find fd = some sock →
    d.arrived sock = d.returned sock ++ d.fds.waiting fd
  fresh {sock} : d.nextSock ≤ sock → d.Unused sock
  waiting {fd conn addr} : d.fds.fakeAcceptedSockets.find fd = some (conn, addr) → d.Unused conn

theorem Fds.waiting_eq_nil {f : Fds} {fd : Fd} (h : f.fakeAcceptedSockets.find fd = none) :
    f.waiting fd = [] := by
  simp [waiting, h]

theorem Fds.waiting_eq_singleton {f : Fds} {fd : Fd} {conn : SockId} {addr : Option (ℕ × ℕ)}
    (h : f.fakeAcceptedSockets.find fd = some (conn, addr)) : f.waiting fd = [conn] := by
  simp [waiting, h]

section history

variable {d : Data} {sock sock' conn : SockId} {rx tx : ℕ}

theorem arrived_income_self :
    (d.income sock rx tx).arrived sock = d.arrived sock ++ [d.nextSock] := Function.update_self ..

theorem arrived_income_of_ne (h : sock' ≠ sock) :
    (d.income sock rx tx).arrived sock' = d.arrived sock' := Function.update_of_ne h ..

theorem returned_give_self : (d.give sock conn).returned sock = d.returned sock ++ [conn] :=
  Function.update_self ..

theorem returned_give_of_ne (h : sock' ≠ sock) :
    (d.give sock conn).returned sock' = d.returned sock' := Function.update_of_ne h ..

/-- Another socket stays unused. -/
theorem Data.Unused.give (hu : d.Unused sock') (hk : sock' ≠ sock) (conn : SockId) :
    (d.give sock conn).Unused sock' :=
  ⟨hu.1, hu.2.1, (returned_give_of_ne hk).trans hu.2.2⟩

/-- No connection arrives at an unused socket. -/
theorem Data.Unused.income (hu : d.Unused sock') (hl : d.listening sock = true) :
    (d.income sock rx tx).Unused sock' := by
  have hk : sock' ≠ sock := by
    rintro rfl
    rw [hu.1] at hl
    cases hl
  exact ⟨hu.1, (arrived_income_of_ne hk).trans hu.2.1, hu.2.2⟩

end history

namespace Served

variable {d d' : Data} {f : Fds} {fd fd' : Fd} {sock conn : SockId} {addr : Option (ℕ × ℕ)}
  {cbs : SockId → Option AcceptCallback}

/-- Other fields may differ. -/
theorem of_fields (h : Served d) (hfds : d'.fds = d.fds) (hl : d'.listening = d.listening)
    (hn : d'.nextSock = d.nextSock) (ha : d'.arrived = d.arrived)
    (hr : d'.returned = d.returned) : Served d' := by
  obtain ⟨hnamed, hfresh, hwait⟩ := h
  constructor
  · intro fd sock
    rw [hfds, ha, hr]
    exact hnamed
  · intro sock
    rw [hn, Data.Unused, hl, ha, hr]
    exact hfresh
  · intro fd conn addr
    rw [hfds, Data.Unused, hl, ha, hr]
    exact hwait

/-- Only the two maps matter. -/
theorem withFds (h : Served d) (hs : f.sockets = d.fds.sockets)
    (hw : f.fakeAcceptedSockets = d.fds.fakeAcceptedSockets) : Served (d.withFds f) := by
  obtain ⟨hnamed, hfresh, hwait⟩ := h
  refine ⟨fun {fd sock} hname => ?_, hfresh, fun hfind => hwait (hw ▸ hfind)⟩
  have hf : (d.withFds f).fds.waiting fd = d.fds.waiting fd := by
    simp only [Data.withFds, Fds.waiting, hw]
  rw [hf]
  exact hnamed (hs ▸ hname)

theorem newSock (h : Served d) (tcp : Bool) (rx tx : ℕ) : Served (d.newSock tcp rx tx) :=
  ⟨h.named, fun hle => h.fresh (Nat.le_of_succ_le hle), h.waiting⟩

/-- An unused socket is given a name. -/
theorem addSocket (h : Served d) (hs : f.sockets = d.fds.sockets.assign fd sock)
    (hw : f.fakeAcceptedSockets = d.fds.fakeAcceptedSockets)
    (hfd : d.fds.fakeAcceptedSockets.find fd = none) (hu : d.Unused sock) :
    Served (d.withFds f) := by
  obtain ⟨hnamed, hfresh, hwait⟩ := h
  refine ⟨fun {fd' sock'} hname => ?_, hfresh, fun hfind => hwait (hw ▸ hfind)⟩
  have hf : (d.withFds f).fds.waiting fd' = d.fds.waiting fd' := by
    simp only [Data.withFds, Fds.waiting, hw]
  rw [hf]
  have hname : (d.fds.sockets.assign fd sock).find fd' = some sock' := hs ▸ hname
  by_cases hk : fd' = fd
  · subst hk
    rw [StdMap.find_assign_self, Option.some.injEq] at hname
    subst hname
    show d.arrived sock = d.returned sock ++ _
    rw [hu.2.1, hu.2.2, Fds.waiting_eq_nil hfd]
    rfl
  · rw [StdMap.find_assign_ne _ _ hk] at hname
    exact hnamed hname

theorem closeSocket (h : Served d) (fd : Fd) : Served (d.withFds (d.fds.closeSocket fd)) := by
  refine ⟨fun {fd' sock'} hname => ?_, h.fresh, h.waiting⟩
  have hk : fd' ≠ fd := by
    rintro rfl
    simp [Data.withFds, Fds.closeSocket] at hname
  refine @Served.named d h fd' sock' ?_
  rwa [Data.withFds, Fds.closeSocket, StdMap.find_erase_ne _ hk] at hname

/-- A socket with a name listens. -/
theorem listen (h : Served d) (ho : Owned d.fds cbs d.nextSock)
    (hname : d.fds.sockets.find fd = some sock) :
    Served { d with listening := Function.update d.listening sock true } := by
  have other : ∀ {sock'}, sock' ≠ sock → d.Unused sock' →
      ({ d with listening := Function.update d.listening sock true } : Data).Unused sock' :=
    fun hk hu => ⟨(Function.update_of_ne hk _ _).trans hu.1, hu.2.1, hu.2.2⟩
  refine ⟨h.named, fun {sock'} hle => other ?_ (h.fresh hle), fun {fd' conn addr} hw =>
    other ?_ (h.waiting hw)⟩
  · exact ((ho.named_lt hname).trans_le hle).ne'
  · rintro rfl
    exact ho.waiting_unnamed hw hname

/-- A connection that waits is returned. -/
theorem accept (h : Served d) (ho : Owned d.fds cbs d.nextSock)
    (hname : d.fds.sockets.find fd = some sock)
    (hw : d.fds.fakeAcceptedSockets.find fd = some (conn, addr)) :
    Served ((d.withFds (d.fds.eraseFakeAccepted fd)).give sock conn) := by
  refine ⟨fun {fd' sock'} hname' => ?_, fun {sock'} hle => (h.fresh hle).give ?_ conn,
    fun {fd' conn' addr'} hfind => ?_⟩
  · have hname' : d.fds.sockets.find fd' = some sock' := hname'
    show d.arrived sock' = _ ++ (d.fds.eraseFakeAccepted fd).waiting fd'
    by_cases hk : fd' = fd
    · subst hk
      cases hname.symm.trans hname'
      rw [returned_give_self, h.named hname, Fds.waiting_eq_singleton hw, Fds.waiting_eq_nil,
        List.append_nil]
      · rfl
      · exact StdMap.find_erase_self _ _
    · have hsock : sock' ≠ sock := by
        rintro rfl
        exact hk (ho.named_inj hname' hname)
      rw [returned_give_of_ne hsock, h.named hname', Fds.waiting, Fds.waiting,
        Fds.eraseFakeAccepted, StdMap.find_erase_ne _ hk]
      rfl
  · exact ((ho.named_lt hname).trans_le hle).ne'
  · have hk : fd' ≠ fd := by
      rintro rfl
      simp [Data.withFds, Data.give, Fds.eraseFakeAccepted] at hfind
    have hold : d.fds.fakeAcceptedSockets.find fd' = some (conn', addr') :=
      (StdMap.find_erase_ne _ hk).symm.trans hfind
    exact (h.waiting hold).give (fun hsock => ho.waiting_unnamed hold (hsock ▸ hname)) conn

/-- A connection arrives at a socket without a name. -/
theorem lose (h : Served d) (rx tx : ℕ) (hl : d.listening sock = true)
    (hun : ∀ fd, d.fds.sockets.find fd ≠ some sock) : Served (d.income sock rx tx) := by
  refine ⟨fun {fd' sock'} hname => ?_, fun hle => (h.fresh (Nat.le_of_succ_le hle)).income hl,
    fun hw => (h.waiting hw).income hl⟩
  have hk : sock' ≠ sock := by
    rintro rfl
    exact hun fd' hname
  exact (arrived_income_of_ne hk).trans (h.named hname)

/-- A connection arrives and waits. -/
theorem store (h : Served d) (rx tx : ℕ) (ho : Owned d.fds cbs d.nextSock)
    (hl : d.listening sock = true)
    (hname : d.fds.sockets.find fd = some sock) (hw : d.fds.fakeAcceptedSockets.find fd = none)
    (addr : Option (ℕ × ℕ)) :
    Served ((d.income sock rx tx).withFds (d.fds.fakeAccept fd (d.nextSock, addr))) := by
  refine ⟨fun {fd' sock'} hname' => ?_, fun hle => (h.fresh (Nat.le_of_succ_le hle)).income hl,
    fun {fd' conn' addr'} hfind => ?_⟩
  · have hname' : d.fds.sockets.find fd' = some sock' := hname'
    show (d.income sock rx tx).arrived sock' =
      d.returned sock' ++ (d.fds.fakeAccept fd (d.nextSock, addr)).waiting fd'
    by_cases hk : fd' = fd
    · subst hk
      cases hname.symm.trans hname'
      rw [arrived_income_self, h.named hname, Fds.waiting_eq_nil hw, List.append_nil,
        Fds.waiting_eq_singleton (StdMap.find_assign_self _ _ _)]
    · have hsock : sock' ≠ sock := by
        rintro rfl
        exact hk (ho.named_inj hname' hname)
      rw [arrived_income_of_ne hsock, h.named hname', Fds.waiting, Fds.waiting, Fds.fakeAccept,
        StdMap.find_assign_ne _ _ hk]
  · by_cases hk : fd' = fd
    · subst hk
      have hnew := (StdMap.find_assign_self d.fds.fakeAcceptedSockets fd' _).symm.trans hfind
      rw [Option.some.injEq, Prod.mk.injEq] at hnew
      obtain ⟨rfl, -⟩ := hnew
      exact (h.fresh le_rfl).income hl
    · have hold : d.fds.fakeAcceptedSockets.find fd' = some (conn', addr') :=
        (StdMap.find_assign_ne _ _ hk).symm.trans hfind
      exact (h.waiting hold).income hl

/-- A connection arrives and is returned at once. -/
theorem passOn (h : Served d) (rx tx : ℕ) (ho : Owned d.fds cbs d.nextSock)
    (hl : d.listening sock = true)
    (hname : d.fds.sockets.find fd = some sock) (hw : d.fds.fakeAcceptedSockets.find fd = none) :
    Served ((d.income sock rx tx).give sock d.nextSock) := by
  refine ⟨fun {fd' sock'} hname' => ?_, fun {sock'} hle => ?_, fun {fd' conn' addr'} hfind => ?_⟩
  · have hname' : d.fds.sockets.find fd' = some sock' := hname'
    show (d.income sock rx tx).arrived sock' = _ ++ d.fds.waiting fd'
    by_cases hk : sock' = sock
    · subst hk
      cases ho.named_inj hname hname'
      rw [returned_give_self, arrived_income_self, h.named hname, Fds.waiting_eq_nil hw,
        List.append_nil, List.append_nil]
      rfl
    · rw [returned_give_of_ne hk, arrived_income_of_ne hk]
      exact h.named hname'
  · exact ((h.fresh (Nat.le_of_succ_le hle)).income hl).give
      ((ho.named_lt hname).trans (Nat.lt_of_succ_le hle)).ne' _
  · exact ((h.waiting hfind).income hl).give
      (fun hsock => ho.waiting_unnamed hfind (hsock ▸ hname)) _

/-- At a socket without a name everything may happen. -/
theorem giveUnnamed (h : Served d) (hl : d.listening sock = true)
    (hun : ∀ fd, d.fds.sockets.find fd ≠ some sock) (conn : SockId) :
    Served (d.give sock conn) := by
  have other : ∀ {sock'}, d.Unused sock' → (d.give sock conn).Unused sock' := by
    intro sock' hu
    refine hu.give ?_ conn
    rintro rfl
    rw [hu.1] at hl
    cases hl
  refine ⟨fun {fd' sock'} hname => ?_, fun hle => other (h.fresh hle),
    fun hw => other (h.waiting hw)⟩
  have hk : sock' ≠ sock := by
    rintro rfl
    exact hun fd' hname
  rw [returned_give_of_ne hk]
  exact h.named hname

/-- A blocking `accept` returns a connection at once, under the number `fd'`. -/
theorem acceptNamed (h : Served d) (rx tx : ℕ) (ho : Owned d.fds cbs d.nextSock)
    (hl : d.listening sock = true)
    (hname : d.fds.sockets.find fd = some sock) (hw : d.fds.fakeAcceptedSockets.find fd = none)
    (hslot : d.fds.fakeAcceptedSockets.find fd' = none)
    (hfs : f.sockets = d.fds.sockets.assign fd' d.nextSock)
    (hfw : f.fakeAcceptedSockets = d.fds.fakeAcceptedSockets) :
    Served (((d.income sock rx tx).give sock d.nextSock).withFds f) :=
  (h.passOn rx tx ho hl hname hw).addSocket hfs hfw hslot
    (((h.fresh le_rfl).income hl).give (ho.named_lt hname).ne' _)

/-- A blocking `accept` whose descriptor has been closed gets a connection. -/
theorem acceptUnnamed (h : Served d) (rx tx : ℕ) (hl : d.listening sock = true)
    (hun : ∀ fd, d.fds.sockets.find fd ≠ some sock)
    (hslot : d.fds.fakeAcceptedSockets.find fd' = none)
    (hfs : f.sockets = d.fds.sockets.assign fd' d.nextSock)
    (hfw : f.fakeAcceptedSockets = d.fds.fakeAcceptedSockets) :
    Served ((d.income sock rx tx).withFds f) ∧
    Served (((d.income sock rx tx).give sock d.nextSock).withFds f) := by
  have hlost := h.lose rx tx hl hun
  have hfresh : (d.income sock rx tx).Unused d.nextSock := (h.fresh le_rfl).income hl
  have hne : d.nextSock ≠ sock := by
    rintro rfl
    rw [(h.fresh le_rfl).1] at hl
    cases hl
  exact ⟨hlost.addSocket hfs hfw hslot hfresh,
    (hlost.giveUnnamed hl hun d.nextSock).addSocket hfs hfw hslot (hfresh.give hne _)⟩

end Served

/-! ### Handlers -/

section handlers

variable {s s' : St} {d d' : Data} {call : Syscall} {p : Pid} {res : SyscallHandlerStatusCode}
  {cbs : SockId → Option AcceptCallback}

theorem Quiet.served (h : Quiet d d') (hs : Served d) : Served d' :=
  hs.of_fields h.fds h.listening h.nextSock h.arrived h.returned

theorem Quiet.give (h : Quiet d d') (sock conn : SockId) :
    Quiet (d.give sock conn) (d'.give sock conn) := by
  refine ⟨h.fds, h.nls, h.isTcp, h.listening, h.rxAvailable, h.selMem, h.nextSock, h.nextNl,
    h.arrived, ?_⟩
  simp only [Data.give, h.returned]

/-- A number that is available has no entry. -/
theorem slot_available {f : Fds} {arr : SockId → List SockId} (hp : f.Partition)
    (hm : Marked f cbs arr) {fd : Fd} (hfd : f.nextFD = some fd) :
    f.fakeAcceptedSockets.find fd = none :=
  (hm.blank (Finset.disjoint_left.mp hp.available_sockets (Fds.nextFD_mem hfd))).waiting

theorem Edit.served (h : Edit call p d d') (hp : d.fds.Partition) (hm : Marked d.fds cbs d.arrived)
    (hs : Served d) : Served d' := by
  cases h with
  | quiet hq => exact hq.served hs
  | random _ hq => exact hq.served (hs.withFds rfl rfl)
  | @socket fd tx _ hfd hq =>
      exact hq.served ((hs.newSock false 0 tx).addSocket rfl rfl (slot_available hp hm hfd)
        (hs.fresh le_rfl))
  | @tcpSocket fd tx _ hfd hq =>
      exact hq.served ((hs.newSock true 0 tx).addSocket rfl rfl (slot_available hp hm hfd)
        (hs.fresh le_rfl))
  | @netlink fd nl_pid _ _ hq =>
      have hnl : Served (d.newNetlink p nl_pid) := hs.of_fields rfl rfl rfl rfl rfl
      exact hq.served (hnl.withFds rfl rfl)
  | @closeSocket fd _ _ _ _ hq => exact hq.served (hs.closeSocket fd)
  | closeNetlink _ _ _ hq => exact hq.served (hs.withFds rfl rfl)
  | closeRandom _ _ hq => exact hq.served (hs.withFds rfl rfl)
  | nonblocking _ hq => exact hq.served (hs.withFds rfl rfl)
  | listenFailed _ _ hq => exact hq.served (hs.withFds rfl rfl)

/-- The thread of `τ` is at the entry stop of its call. -/
def Ctl.awaits (c : Ctl) (τ : Task) : Bool :=
  match c.threads τ.thread, c.acts τ.act with
  | some th, some a => decide (th.phase = .entry ∧ th.serial = a.serial)
  | _, _ => false

theorem awaits_cases {c : Ctl} {τ : Task} (h : c.awaits τ = true) :
    ∃ th a, c.threads τ.thread = some th ∧ c.acts τ.act = some a ∧ th.phase = .entry ∧
      th.serial = a.serial := by
  unfold Ctl.awaits at h
  split at h
  next th a hth ha =>
    obtain ⟨hph, hser⟩ := of_decide_eq_true h
    exact ⟨th, a, hth, ha, hph, hser⟩
  next => cases h

/-- A call that is answered while its thread waits in it has been answered. -/
theorem Completes.answered {c c' : Ctl} {v : ℤ} (h : Completes c.task.thread v c c')
    (hw : c.awaits c.task = true) : c'.answered c'.task = true := by
  obtain ⟨th, a, hth, ha, hph, hser⟩ := awaits_cases hw
  cases h with
  | atEntry hth' _ =>
      cases hth'.symm.trans hth
      simp [Ctl.answered, Ctl.answer, ha, hser]
  | atExit next hth' hph' =>
      cases hth'.symm.trans hth
      cases hph'.symm.trans hph

theorem St.returning_d {sock conn : SockId} (h : s.c.answered s.c.task = true) :
    (s.returning (some sock) conn).d = s.d.give sock conn := by
  simp only [St.returning, h, if_true]
  rfl

theorem NlStep.returned {nl : NlId} (h : NlStep nl s s') : s'.d.returned = s.d.returned := by
  cases h <;> rfl

theorem NlWork.returned {nl : NlId} (h : NlWork nl s s') : s'.d.returned = s.d.returned := by
  induction h with
  | refl => rfl
  | tail _ hstep ih => exact hstep.returned.trans ih

theorem Handled.served (h : Handled call s res s') (hres : res ≠ .error)
    (hp : s.d.fds.Partition) (ho : s.Owned) (hm : Marked s.d.fds s.c.acceptCallback s.d.arrived)
    (hpid : s.c.task.thread = s.c.pid)
    (haccept : ∀ fd out, call = .accept fd out → s.c.awaits s.c.task = true) (hs : Served s.d) :
    Served s'.d := by
  cases h with
  | error => exact absurd rfl hres
  | answered _ _ _ he => exact he.served hp hm hs
  | @listened fd _ _ _ _ _ hsock _ _ hq =>
      have hf : Served (s.d.withFds (s.d.fds.setListen fd)) := hs.withFds rfl rfl
      exact hq.served (hf.listen (ho.congr rfl rfl) hsock)
  | @accepted fd fd' out conn addr d' c' hcall hlisten hw hfd hq hc =>
      obtain ⟨sock, hsock, -⟩ := hm.arrived hw
      have hans : c'.answered c'.task = true :=
        Completes.answered (hpid ▸ hc) (haccept fd out hcall)
      rw [hsock, St.returning_d (s := ⟨c', d'⟩) hans]
      have hne : conn ≠ sock := by
        rintro rfl
        exact ho.waiting_unnamed hw hsock
      have hslot : (s.d.fds.eraseFakeAccepted fd).fakeAcceptedSockets.find fd' = none := by
        have hnone := slot_available hp hm hfd
        simp [Fds.eraseFakeAccepted, StdMap.find_erase, hnone]
      have hadd := (hs.accept ho hsock hw).addSocket
        (f := ((s.d.fds.eraseFakeAccepted fd).eraseAvailable fd').addAccepted fd' conn)
        rfl rfl hslot ((hs.waiting hw).give hne conn)
      have hgive : Served ((s.d.withFds (((s.d.fds.eraseFakeAccepted fd).eraseAvailable
          fd').addAccepted fd' conn)).give sock conn) :=
        hadd.of_fields rfl rfl rfl rfl rfl
      exact (hq.give sock conn).served hgive
  | nlSend _ _ hw =>
      have hsame := hw.same
      exact hs.of_fields hsame.fds hsame.listening hsame.nextSock hsame.arrived hw.returned
  | nlOther _ _ _ hq => exact hq.served (hs.of_fields rfl rfl rfl rfl rfl)
  | passed _ _ _ hq => exact hq.served hs
  | cloned => exact hs
  | unadvanced _ _ hq => exact hq.served hs
  | systemExit => exact hs
  | recvNow _ _ _ hq => exact hq.served (hs.of_fields rfl rfl rfl rfl rfl)
  | recvWait => exact hs
  | writeWait => exact hs
  | connectRefused _ _ _ hq => exact hq.served hs
  | connectWait _ _ _ hq => exact hq.served hs
  | connectNow _ _ _ hq => exact hq.served (hs.withFds rfl rfl)
  | acceptWait => exact hs
  | selectNow _ _ _ hq => exact hq.served (hs.of_fields rfl rfl rfl rfl rfl)
  | selectWait => exact hs.of_fields rfl rfl rfl rfl rfl
  | sleeping => exact hs

end handlers

/-! ### Steps -/

/-- A callback is installed on the socket that keeps a connection, or an `accept` whose thread it
finds. -/
def Ctl.takes (c : Ctl) (sock : SockId) : Bool :=
  match c.acceptCallback sock with
  | none => false
  | some (.fakeAccept _) => true
  | some (.select cl) => !c.alreadyHandled cl.task.act
  | some (.accept task _ _) => decide (c.pid = task.thread) && c.awaits task

/-- A connection that comes in on a socket with a descriptor is taken, and no other one waits. -/
def receives (s : St) (l : Label) : Bool :=
  match l.what with
  | .incoming sock _ => decide (∀ fd ∈ s.d.fds.sockets.keys, s.d.fds.sockets.find fd = some sock →
      s.c.takes sock = true ∧ s.d.fds.fakeAcceptedSockets.find fd = none)
  | _ => true

/-- An `accept` is dispatched at its entry stop. -/
def acceptsAtEntry (s : St) (l : Label) : Bool :=
  match dispatched s l with
  | some (p, .accept _ _) => decide ((s.c.threads p).map Tracee.phase = some .exit)
  | _ => true

/-- The steps that keep the connections. -/
abbrev KeepsConnections (s : St) (l : Label) : Prop :=
  KeepsMarks s l ∧ receives s l = true ∧ acceptsAtEntry s l = true

section steps

variable {s s' : St} {l : Label} {sock : SockId} {fd : Fd}

theorem receives_incoming {addr : Option (ℕ × ℕ)} (h : receives s l = true)
    (hl : l.what = .incoming sock addr) (hname : s.d.fds.sockets.find fd = some sock) :
    s.c.takes sock = true ∧ s.d.fds.fakeAcceptedSockets.find fd = none := by
  unfold receives at h
  rw [hl] at h
  exact of_decide_eq_true h fd (StdMap.mem_keys_of_find hname) hname

/-- The thread of an `accept` that is dispatched at its entry stop waits in it. -/
theorem awaits_dispatch {p : Pid} {c c₁ : Ctl} {th : Tracee} (hc : Caught p c c₁)
    (hth : c₁.threads p = some th) (hph : (c.threads p).map Tracee.phase = some .exit) :
    (c₁.dispatch p th).awaits (c₁.dispatch p th).task = true := by
  cases hc with
  | @entry _ next _ _ _ _ =>
      cases (Ctl.toEntry_self _ next _).symm.trans hth
      simp [Ctl.awaits, Ctl.dispatch, hth]
  | exit hth' hph' =>
      rw [hth', Option.map_some, hph'] at hph
      cases hph

theorem Served.step (hs : Served s.d) (hk : Kept s) (hc : KeepsConnections s l)
    (h : Grail.step s l = some s') : Served s'.d := by
  obtain ⟨hmarks, hrec, hacc⟩ := hc
  obtain ⟨-, -, h⟩ := step_cases h
  generalize hl : l.what = what at h
  -- only sockets without a descriptor lose connections
  have unnamed : ∀ {sock addr}, l.what = .incoming sock addr → s.c.takes sock = false →
      ∀ fd, s.d.fds.sockets.find fd ≠ some sock := by
    intro sock addr hl htakes fd hname
    rw [(receives_incoming hrec hl hname).1] at htakes
    cases htakes
  cases h with
  | @fired i e _ he _ hf =>
      obtain ⟨t, kind⟩ := e
      cases hf with
      | gone => exact hs
      | @dispatched p c₁ th res s₂ _ hc hth hh hp =>
          have hdisp := dispatched_eq (s := s) (resumes_eq hl he rfl) (hc.catches hth)
          have hcalm := Calm.of_caught hc
          have hslots : c₁.acceptCallback = s.c.acceptCallback := hcalm.acceptCallback
          rw [hp.d]
          refine hh.handled.served hp.ne_error hk.partition ?_ ?_ hcalm.pid.symm ?_ hs
          · show Owned s.d.fds c₁.acceptCallback s.d.nextSock
            rw [hslots]
            exact hk.owned
          · show Marked s.d.fds c₁.acceptCallback s.d.arrived
            rw [hslots]
            exact hk.marked
          · intro fd out hcall
            have hph : (s.c.threads p).map Tracee.phase = some .exit := by
              simpa [acceptsAtEntry, hdisp, hcall] using hacc
            exact awaits_dispatch hc hth hph
      | timeoutStale => exact hs
      | timeout => exact hs
      | slept => exact hs
      | removed hq => exact hq.served hs
  | receivedIdle => exact hs.of_fields rfl rfl rfl rfl rfl
  | receivedRead _ _ hq => exact hq.served (hs.of_fields rfl rfl rfl rfl rfl)
  | receivedSelect => exact hs.of_fields rfl rfl rfl rfl rfl
  | sendableIdle => exact hs.of_fields rfl rfl rfl rfl rfl
  | sendableSelect => exact hs.of_fields rfl rfl rfl rfl rfl
  | @incomingLost sock addr rx tx d' hlisten hcb hq =>
      refine hq.served (hs.lose rx tx hlisten (unnamed hl ?_))
      have hcb : ∀ cb, s.c.acceptCallback sock = some cb →
        ∃ cl, cb = .select cl ∧ s.c.alreadyHandled cl.task.act = true := hcb
      unfold Ctl.takes
      cases hslot : s.c.acceptCallback sock with
      | none => rfl
      | some cb =>
          obtain ⟨cl, rfl, hhandled⟩ := hcb cb hslot
          simp [hhandled]
  | @incomingStored sock addr rx tx fd d' hlisten hcb hq =>
      have hname := namesSocket_incoming hmarks.2 hl hcb (.inl ⟨_, rfl⟩)
      have hnone := (receives_incoming hrec hl hname).2
      exact hq.served (hs.store rx tx hk.owned hlisten hname hnone addr)
  | @incomingSelect sock sock' addr rx tx cl d' c' hlisten hcb hn _ hq _ =>
      have hname := namesSocket_incoming hmarks.2 hl hcb (.inr ⟨_, rfl, hn⟩)
      have hstore := hs.store rx tx hk.owned hlisten hname
        (receives_incoming hrec hl hname).2 addr
      exact hq.served (hstore.of_fields rfl rfl rfl rfl rfl)
  | @incomingAccept sock addr rx tx τ fd fd' out d' c₁ hlisten hcb hfd hq hc =>
      have hslot := slot_available hk.partition hk.marked hfd
      by_cases hun : ∀ fd, s.d.fds.sockets.find fd ≠ some sock
      · obtain ⟨hlost, hgiven⟩ := hs.acceptUnnamed rx tx
          (f := (s.d.fds.eraseAvailable fd').addAccepted fd' s.d.nextSock) hlisten hun hslot rfl rfl
        unfold St.returning
        simp only
        split_ifs
        · exact (hq.give sock s.d.nextSock).served (hgiven.of_fields rfl rfl rfl rfl rfl)
        · exact hq.served hlost
      · simp only [not_forall, not_not] at hun
        obtain ⟨fd₀, hname⟩ := hun
        obtain ⟨htakes, hnone⟩ := receives_incoming hrec hl hname
        have hcb : s.c.acceptCallback sock = some (.accept τ fd out) := hcb
        simp only [Ctl.takes, hcb, Bool.and_eq_true, decide_eq_true_eq] at htakes
        obtain ⟨hpid, hawaits⟩ := htakes
        have hc : Completes s.c.pid fd' ((s.moveTo l).c.onTask τ) c₁ := hc
        rw [hpid] at hc
        have hans : c₁.answered c₁.task = true :=
          Completes.answered (c := (s.moveTo l).c.onTask τ) hc hawaits
        rw [St.returning_d (s := ⟨c₁, d'⟩) hans]
        have hpass := hs.acceptNamed rx tx
          (f := (s.d.fds.eraseAvailable fd').addAccepted fd' s.d.nextSock) hk.owned hlisten hname
          hnone hslot rfl rfl
        exact (hq.give sock s.d.nextSock).served (hpass.of_fields rfl rfl rfl rfl rfl)
  | connectIdle => exact hs
  | connected => exact hs.withFds rfl rfl
  | refused => exact hs

end steps

theorem Served.initial (app : App) (env : Env) : Served (St.initial app env).d := by
  refine ⟨?_, fun _ => ⟨rfl, rfl, rfl⟩, ?_⟩
  · simp [St.initial, Fds.initial]
  · simp [St.initial, Fds.initial]

/-- In runs of steps that keep the connections, the connections that `accept` has returned from a
descriptor are a prefix of those that arrived; what is left of them waits. -/
theorem connections_of_run {app : App} {env : Env} {ls : List Label} {s : St}
    (h : run (St.initial app env) ls = some s)
    (hk : Runs.Meets step KeepsConnections (St.initial app env) ls) {fd : Fd} {sock : SockId}
    (hname : s.d.fds.sockets.find fd = some sock) :
    s.d.returned sock <+: s.d.arrived sock ∧
      s.d.arrived sock = s.d.returned sock ++ s.d.fds.waiting fd := by
  have hs : Kept s ∧ Served s.d := by
    refine Runs.run_induction (I := fun s => Kept s ∧ Served s.d) ?_ ?_ h hk
    · exact fun s l s' hI hk h => ⟨hI.1.step hk.1 h, hI.2.step hI.1 hk h⟩
    · exact ⟨Kept.initial app env, Served.initial app env⟩
  have hsplit := hs.2.named hname
  exact ⟨⟨_, hsplit.symm⟩, hsplit⟩

/-- A socket that listens, and two `accept`s. -/
def serverEnv : Env :=
  .script [.entry (.socket AF_INET SOCK_STREAM 0), .exit 0, .entry (.listen 100 2), .exit 0,
    .entry (.accept 100 ⟨0, 0, 0⟩), .exit 0, .entry (.accept 100 ⟨0, 0, 0⟩), .exit 0] []

/-- The first connection waits for its `accept`, the second `accept` for its connection. -/
theorem connections_of_run_two :
    ∃ s, run (St.initial {} serverEnv) [⟨0, .fire 0⟩, ⟨0, .fire 0⟩, ⟨0, .incoming 0 none⟩,
        ⟨0, .fire 0⟩, ⟨0, .fire 0⟩, ⟨0, .incoming 0 none⟩] = some s ∧
      s.d.returned 0 = [1, 2] ∧ s.d.returned 0 <+: s.d.arrived 0 := by
  have hrun : (run (St.initial {} serverEnv) [⟨0, .fire 0⟩, ⟨0, .fire 0⟩, ⟨0, .incoming 0 none⟩,
      ⟨0, .fire 0⟩, ⟨0, .fire 0⟩, ⟨0, .incoming 0 none⟩]).any
      (fun s => s.d.returned 0 = [1, 2] ∧ s.d.fds.sockets.find 100 = some 0) = true := by
    decide +kernel
  obtain ⟨s, hs, hview⟩ := (Option.any_eq_true _ _).mp hrun
  obtain ⟨hreturned, hname⟩ := of_decide_eq_true hview
  exact ⟨s, hs, hreturned, (connections_of_run hs (by decide +kernel) hname).1⟩

/-- Two connections arrive before the first `accept`: the second takes the place of the first. -/
theorem accept_skips :
    ¬ ∀ app env ls s fd sock, run (St.initial app env) ls = some s →
      s.d.fds.sockets.find fd = some sock → s.d.returned sock <+: s.d.arrived sock := by
  intro hall
  have hrun : (run (St.initial {} serverEnv) [⟨0, .fire 0⟩, ⟨0, .fire 0⟩, ⟨0, .incoming 0 none⟩,
      ⟨0, .incoming 0 none⟩, ⟨0, .fire 0⟩]).any
      (fun s => s.d.returned 0 = [2] ∧ s.d.arrived 0 = [1, 2] ∧
        s.d.fds.sockets.find 100 = some 0) = true := by
    decide +kernel
  obtain ⟨s, hs, hview⟩ := (Option.any_eq_true _ _).mp hrun
  obtain ⟨hreturned, harrived, hname⟩ := of_decide_eq_true hview
  have hprefix := hall _ _ _ s 100 0 hs hname
  rw [hreturned, harrived] at hprefix
  exact absurd hprefix (by decide)

end Grail
