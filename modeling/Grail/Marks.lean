import Grail.Ownership

/-! # The tables beside `m_sockets`

`Fds.Marks`: the sets of TCP, connected, listening and non-blocking sockets and the waiting
connections speak of numbers in `m_sockets` only.  Two things break it: `close` leaves a waiting
connection behind, and a callback that captured a number uses it after the number was closed.
`KeepsMarks` excludes both; `marks_of_run` proves `Marks` of every run whose steps keep to it. -/

namespace Grail

/-- The tables beside `m_sockets` agree with it. -/
structure Fds.Marks (f : Fds) : Prop where
  tcp : f.tcpSockets ⊆ f.sockets.keys
  connected : f.connectedSockets ⊆ f.sockets.keys
  nonblocking : f.nonblockingSockets ⊆ f.sockets.keys
  listen : f.isListenTcpSocket ⊆ f.tcpSockets
  waiting : f.fakeAcceptedSockets.keys ⊆ f.isListenTcpSocket

/-- No table beside `m_sockets` knows `fd`. -/
structure Fds.Blank (f : Fds) (fd : Fd) : Prop where
  tcp : fd ∉ f.tcpSockets
  connected : fd ∉ f.connectedSockets
  nonblocking : fd ∉ f.nonblockingSockets
  listen : fd ∉ f.isListenTcpSocket
  waiting : f.fakeAcceptedSockets.find fd = none

/-- The call of `l` does not close a descriptor on which a connection waits. -/
def closesIdle (s : St) (l : Label) : Bool :=
  match dispatched s l with
  | some (_, .close fd) => (s.d.fds.fakeAcceptedSockets.find fd).isNone
  | _ => true

/-- The callback that `l` invokes captured a number that still names its socket. -/
def namesSocket (s : St) (l : Label) : Bool :=
  match l.what with
  | .incoming sock _ =>
      match s.c.acceptCallback sock with
      | some (.fakeAccept fd) => decide (s.d.fds.sockets.find fd = some sock)
      | some (.select cl) =>
          s.c.alreadyHandled cl.task.act || decide (s.d.fds.sockets.find cl.fdnr = some sock)
      | _ => true
  | .connected sock =>
      match s.c.connectCallback sock with
      | some cl => decide (s.d.fds.sockets.find cl.sockfd = some sock)
      | none => true
  | _ => true

/-- The steps that keep `Fds.Marks`. -/
abbrev KeepsMarks (s : St) (l : Label) : Prop := closesIdle s l = true ∧ namesSocket s l = true

/-! ### The invariant -/

/-- `Fds.Marks`, with the accept callbacks `cbs` and the connections `arr` that have arrived:
a callback whose number names its socket has a listening one, and a waiting connection has
arrived at the socket that its number names. -/
structure Marked (f : Fds) (cbs : SockId → Option AcceptCallback) (arr : SockId → List SockId) :
    Prop where
  marks : f.Marks
  registered {sock cb} : cbs sock = some cb → f.sockets.find cb.sockfd = some sock →
    cb.sockfd ∈ f.isListenTcpSocket
  arrived {fd conn addr} : f.fakeAcceptedSockets.find fd = some (conn, addr) →
    ∃ sock, f.sockets.find fd = some sock ∧ conn ∈ arr sock

namespace Marked

variable {f : Fds} {cbs : SockId → Option AcceptCallback} {arr : SockId → List SockId} {fd : Fd}
  {n : SockId}

theorem initial : Marked .initial (fun _ => none) (fun _ => []) := by
  refine ⟨⟨?_, ?_, ?_, ?_, ?_⟩, ?_, ?_⟩ <;> simp [Fds.initial]

/-- A number that names no socket is blank. -/
theorem blank (h : Marked f cbs arr) (hfd : fd ∉ f.sockets.keys) : f.Blank fd := by
  have htcp : fd ∉ f.tcpSockets := fun hm => hfd (h.marks.tcp hm)
  have hlisten : fd ∉ f.isListenTcpSocket := fun hm => htcp (h.marks.listen hm)
  exact ⟨htcp, fun hm => hfd (h.marks.connected hm), fun hm => hfd (h.marks.nonblocking hm),
    hlisten, StdMap.find_eq_none.mpr fun hm => hlisten (h.marks.waiting hm)⟩

/-- A new name for a socket without callbacks. -/
theorem addSocket (h : Marked f cbs arr) (hfd : fd ∉ f.sockets.keys) {sock : SockId}
    (hcb : cbs sock = none) : Marked (f.addSocket fd sock) cbs arr := by
  have hblank := h.blank hfd
  obtain ⟨⟨htcp, hconn, hnon, hlis, hwait⟩, hreg, harr⟩ := h
  refine ⟨⟨?_, ?_, ?_, hlis, hwait⟩, ?_, ?_⟩
  · exact htcp.trans (by simp [Fds.addSocket])
  · exact hconn.trans (by simp [Fds.addSocket])
  · exact hnon.trans (by simp [Fds.addSocket])
  · intro sock' cb hs hname
    by_cases hk : cb.sockfd = fd
    · rw [hk] at hname
      have hsock : sock = sock' := by simpa [Fds.addSocket] using hname
      rw [← hsock, hcb] at hs
      cases hs
    · exact hreg hs (by rwa [Fds.addSocket, StdMap.find_assign_ne _ _ hk] at hname)
  · intro fd' conn addr hw
    have hk : fd' ≠ fd := by
      rintro rfl
      rw [Fds.addSocket, hblank.waiting] at hw
      cases hw
    obtain ⟨sock', hs, hc⟩ := harr hw
    exact ⟨sock', by rwa [Fds.addSocket, StdMap.find_assign_ne _ _ hk], hc⟩

theorem addTcpSocket (h : Marked f cbs arr) (hfd : fd ∉ f.sockets.keys) {sock : SockId}
    (hcb : cbs sock = none) : Marked (f.addTcpSocket fd sock) cbs arr := by
  obtain ⟨⟨htcp, hconn, hnon, hlis, hwait⟩, hreg, harr⟩ := h.addSocket hfd hcb
  refine ⟨⟨?_, hconn, hnon, hlis.trans (Finset.subset_insert _ _), hwait⟩, hreg, harr⟩
  exact Finset.insert_subset (by simp [Fds.addTcpSocket, Fds.addSocket]) htcp

theorem setConnected (h : Marked f cbs arr) (hfd : fd ∈ f.sockets.keys) :
    Marked (f.setConnected fd) cbs arr := by
  obtain ⟨⟨htcp, hconn, hnon, hlis, hwait⟩, hreg, harr⟩ := h
  exact ⟨⟨htcp, Finset.insert_subset hfd hconn, hnon, hlis, hwait⟩, hreg, harr⟩

theorem addAccepted (h : Marked f cbs arr) (hfd : fd ∉ f.sockets.keys) {sock : SockId}
    (hcb : cbs sock = none) : Marked (f.addAccepted fd sock) cbs arr :=
  (h.addTcpSocket hfd hcb).setConnected (by simp [Fds.addTcpSocket, Fds.addSocket])

theorem setNonblocking (h : Marked f cbs arr) (hfd : fd ∈ f.sockets.keys) :
    Marked (f.setNonblocking fd) cbs arr := by
  obtain ⟨⟨htcp, hconn, hnon, hlis, hwait⟩, hreg, harr⟩ := h
  exact ⟨⟨htcp, hconn, Finset.insert_subset hfd hnon, hlis, hwait⟩, hreg, harr⟩

theorem setListen (h : Marked f cbs arr) (hfd : fd ∈ f.tcpSockets) :
    Marked (f.setListen fd) cbs arr := by
  obtain ⟨⟨htcp, hconn, hnon, hlis, hwait⟩, hreg, harr⟩ := h
  refine ⟨⟨htcp, hconn, hnon, Finset.insert_subset hfd hlis, ?_⟩, ?_, harr⟩
  · exact hwait.trans (Finset.subset_insert _ _)
  · exact fun hs hname => Finset.mem_insert_of_mem (hreg hs hname)

/-- A socket on which no connection waits is closed. -/
theorem closeSocket (h : Marked f cbs arr) (hw : f.fakeAcceptedSockets.find fd = none) :
    Marked (f.closeSocket fd) cbs arr := by
  obtain ⟨⟨htcp, hconn, hnon, hlis, hwait⟩, hreg, harr⟩ := h
  refine ⟨⟨?_, ?_, ?_, ?_, ?_⟩, ?_, ?_⟩
  · simpa [Fds.closeSocket] using Finset.erase_subset_erase fd htcp
  · simpa [Fds.closeSocket] using Finset.erase_subset_erase fd hconn
  · simpa [Fds.closeSocket] using Finset.erase_subset_erase fd hnon
  · exact Finset.erase_subset_erase fd hlis
  · exact Finset.subset_erase.mpr ⟨hwait, StdMap.find_eq_none.mp hw⟩
  · intro sock cb hs hname
    have hk : cb.sockfd ≠ fd := by
      rintro rfl
      simp [Fds.closeSocket] at hname
    rw [Fds.closeSocket, StdMap.find_erase_ne _ hk] at hname
    exact Finset.mem_erase.mpr ⟨hk, hreg hs hname⟩
  · intro fd' conn addr hc
    have hk : fd' ≠ fd := by
      rintro rfl
      rw [Fds.closeSocket, hw] at hc
      cases hc
    obtain ⟨sock, hs, hmem⟩ := harr hc
    exact ⟨sock, by rwa [Fds.closeSocket, StdMap.find_erase_ne _ hk], hmem⟩

theorem eraseFakeAccepted (h : Marked f cbs arr) (fd : Fd) :
    Marked (f.eraseFakeAccepted fd) cbs arr := by
  obtain ⟨⟨htcp, hconn, hnon, hlis, hwait⟩, hreg, harr⟩ := h
  refine ⟨⟨htcp, hconn, hnon, hlis, ?_⟩, hreg, ?_⟩
  · simpa [Fds.eraseFakeAccepted] using (Finset.erase_subset _ _).trans hwait
  · intro fd' conn addr hc
    have hk : fd' ≠ fd := by
      rintro rfl
      simp [Fds.eraseFakeAccepted] at hc
    exact harr (by rwa [Fds.eraseFakeAccepted, StdMap.find_erase_ne _ hk] at hc)

/-- A connection that arrived at the socket of a listening number waits there. -/
theorem fakeAccept (h : Marked f cbs arr) (hfd : fd ∈ f.isListenTcpSocket) {sock conn : SockId}
    (hs : f.sockets.find fd = some sock) (hc : conn ∈ arr sock) (addr : Option (ℕ × ℕ)) :
    Marked (f.fakeAccept fd (conn, addr)) cbs arr := by
  obtain ⟨⟨htcp, hconn, hnon, hlis, hwait⟩, hreg, harr⟩ := h
  refine ⟨⟨htcp, hconn, hnon, hlis, ?_⟩, hreg, ?_⟩
  · simpa [Fds.fakeAccept] using Finset.insert_subset hfd hwait
  · intro fd' conn' addr' hw
    by_cases hk : fd' = fd
    · subst hk
      simp only [Fds.fakeAccept, StdMap.find_assign_self, Option.some.injEq, Prod.mk.injEq] at hw
      exact ⟨sock, hs, hw.1 ▸ hc⟩
    · exact harr (by rwa [Fds.fakeAccept, StdMap.find_assign_ne _ _ hk] at hw)

theorem congr {f' : Fds} (h : Marked f cbs arr) (hs : f'.sockets = f.sockets)
    (hw : f'.fakeAcceptedSockets = f.fakeAcceptedSockets) (ht : f'.tcpSockets = f.tcpSockets)
    (hc : f'.connectedSockets = f.connectedSockets)
    (hl : f'.isListenTcpSocket = f.isListenTcpSocket)
    (hn : f'.nonblockingSockets = f.nonblockingSockets) : Marked f' cbs arr := by
  obtain ⟨⟨htcp, hconn, hnon, hlis, hwait⟩, hreg, harr⟩ := h
  constructor
  · constructor <;> grind
  · grind
  · grind

/-- More connections have arrived. -/
theorem mono {arr' : SockId → List SockId} (h : Marked f cbs arr)
    (ha : ∀ sock, arr sock ⊆ arr' sock) : Marked f cbs arr' := by
  refine ⟨h.marks, h.registered, fun hw => ?_⟩
  obtain ⟨sock, hs, hc⟩ := h.arrived hw
  exact ⟨sock, hs, ha sock hc⟩

/-- Callbacks are registered for listening numbers only. -/
theorem callbacks {cbs' : SockId → Option AcceptCallback} (h : Marked f cbs arr)
    (hc : ∀ sock cb, cbs' sock = some cb → cbs sock = some cb ∨ cb.sockfd ∈ f.isListenTcpSocket) :
    Marked f cbs' arr :=
  ⟨h.marks, fun hs hname => (hc _ _ hs).elim (fun hs => h.registered hs hname) id, h.arrived⟩

end Marked

theorem arrived_income (sock : SockId) (rx tx : ℕ) (d : Data) (sock' : SockId) :
    d.arrived sock' ⊆ (d.income sock rx tx).arrived sock' := by
  by_cases hk : sock' = sock
  · subst hk
    simp [Data.income, Data.arrive, Data.newSock]
  · simp [Data.income, Data.arrive, Data.newSock, hk]

theorem mem_arrived_income (sock : SockId) (rx tx : ℕ) (d : Data) :
    d.nextSock ∈ (d.income sock rx tx).arrived sock := by
  simp [Data.income, Data.arrive, Data.newSock]

theorem SameTables.marked {d d' : Data} {cbs : SockId → Option AcceptCallback}
    (h : SameTables d d') (hm : Marked d.fds cbs d.arrived) : Marked d'.fds cbs d'.arrived := by
  rw [h.fds, h.arrived]
  exact hm

theorem namesSocket_incoming {s : St} {l : Label} {sock : SockId} {addr : Option (ℕ × ℕ)}
    {cb : AcceptCallback} (h : namesSocket s l = true) (hl : l.what = .incoming sock addr)
    (hcb : s.c.acceptCallback sock = some cb)
    (hstores : (∃ fd, cb = .fakeAccept fd) ∨
      ∃ cl, cb = .select cl ∧ s.c.alreadyHandled cl.task.act = false) :
    s.d.fds.sockets.find cb.sockfd = some sock := by
  rcases hstores with ⟨fd, rfl⟩ | ⟨cl, rfl, hn⟩
  · simpa [namesSocket, hl, hcb, AcceptCallback.sockfd] using h
  · simpa [namesSocket, hl, hcb, hn, AcceptCallback.sockfd] using h

theorem namesSocket_connected {s : St} {l : Label} {sock : SockId} {cl : ConnectCallback}
    (h : namesSocket s l = true) (hl : l.what = .connected sock)
    (hcb : s.c.connectCallback sock = some cl) : s.d.fds.sockets.find cl.sockfd = some sock := by
  simpa [namesSocket, hl, hcb] using h

theorem closesIdle_close {s : St} {l : Label} {p : Pid} {fd : Fd} (h : closesIdle s l = true)
    (hl : dispatched s l = some (p, .close fd)) :
    s.d.fds.fakeAcceptedSockets.find fd = none := by
  simpa [closesIdle, hl] using h

variable {s s' : St} {l : Label} {d' : Data}

theorem TableStep.marked (h : TableStep s l d') (hk : KeepsMarks s l) (hp : s.d.fds.Partition)
    (ho : s.Owned) (hm : Marked s.d.fds s.c.acceptCallback s.d.arrived) :
    Marked d'.fds s.c.acceptCallback d'.arrived := by
  have fresh : ∀ {fd}, s.d.fds.nextFD = some fd → fd ∉ s.d.fds.sockets.keys := fun hfd hs =>
    Finset.disjoint_left.mp hp.available_sockets (Fds.nextFD_mem hfd) hs
  have silent : s.c.acceptCallback s.d.nextSock = none :=
    Option.eq_none_iff_forall_ne_some.mpr fun cb hcb => (ho.callback_lt hcb).false
  have grown : ∀ sock rx tx, Marked s.d.fds s.c.acceptCallback (s.d.income sock rx tx).arrived :=
    fun _ _ _ => hm.mono (arrived_income _ _ _ _)
  cases h with
  | same h => exact h.marked hm
  | random _ h => exact h.marked (hm.congr rfl rfl rfl rfl rfl rfl)
  | socket hfd h =>
      exact h.marked ((hm.addSocket (fresh hfd) silent).congr rfl rfl rfl rfl rfl rfl)
  | tcpSocket hfd h =>
      exact h.marked ((hm.addTcpSocket (fresh hfd) silent).congr rfl rfl rfl rfl rfl rfl)
  | netlink _ h => exact h.marked (hm.congr rfl rfl rfl rfl rfl rfl)
  | closeSocket hdisp _ h => exact h.marked (hm.closeSocket (closesIdle_close hk.1 hdisp))
  | closeNetlink _ h => exact h.marked (hm.congr rfl rfl rfl rfl rfl rfl)
  | closeRandom _ h => exact h.marked (hm.congr rfl rfl rfl rfl rfl rfl)
  | nonblocking hs h => exact h.marked (hm.setNonblocking (StdMap.mem_keys_of_find hs))
  | listenFailed _ htcp h => exact h.marked (hm.setListen htcp)
  | listened _ htcp h => exact h.marked (hm.setListen htcp)
  | @accepted fd fd' conn addr hw hfd h =>
      have hconn : s.c.acceptCallback conn = none :=
        Option.eq_none_iff_forall_ne_some.mpr fun cb => ho.waiting_silent hw
      have h₁ := (hm.eraseFakeAccepted fd).addAccepted (fresh hfd) hconn
      exact h.marked (h₁.congr rfl rfl rfl rfl rfl rfl)
  | connectNow hs h => exact h.marked (hm.setConnected (StdMap.mem_keys_of_find hs))
  | connected hl hcb h =>
      have hs := namesSocket_connected hk.2 hl hcb
      exact h.marked (hm.setConnected (StdMap.mem_keys_of_find hs))
  | lost _ h => exact h.marked (grown _ _ _)
  | stored hl hcb h =>
      have hs := namesSocket_incoming hk.2 hl hcb (.inl ⟨_, rfl⟩)
      exact h.marked ((grown _ _ _).fakeAccept (hm.registered hcb hs) hs (mem_arrived_income _ _ _ _) _)
  | selectStored hl hcb hn h =>
      have hs := namesSocket_incoming hk.2 hl hcb (.inr ⟨_, rfl, hn⟩)
      exact h.marked ((grown _ _ _).fakeAccept (hm.registered hcb hs) hs (mem_arrived_income _ _ _ _) _)
  | @acceptedNow sock _ rx tx _ _ hfd h =>
      have h₁ := (grown sock rx tx).addAccepted (fresh hfd) silent
      exact h.marked (h₁.congr rfl rfl rfl rfl rfl rfl)

/-- What a step keeps: the numbers are partitioned, the sockets owned, the tables marked. -/
structure Kept (s : St) : Prop where
  partition : s.d.fds.Partition
  owned : s.Owned
  marked : Marked s.d.fds s.c.acceptCallback s.d.arrived

theorem Kept.step (hs : Kept s) (hk : KeepsMarks s l) (h : Grail.step s l = some s') : Kept s' := by
  have ht := table_step h
  refine ⟨ht.partition hs.partition, hs.owned.step h, ?_⟩
  exact (ht.marked hk hs.partition hs.owned hs.marked).callbacks fun _ _ hcb =>
    (accept_slot h hcb).imp_right And.right

theorem Kept.initial (app : App) (env : Env) : Kept (St.initial app env) :=
  ⟨Fds.Partition.initial, Owned.initial, Marked.initial⟩

/-- If no number is closed while a connection waits on it, and callbacks are invoked only while
the number they captured names their socket, the tables agree after every run.  Then a number that
is handed out is blank, and a waiting connection has arrived at the socket that its number names
now, not at an earlier one. -/
theorem marks_of_run {app : App} {env : Env} {ls : List Label} {s : St}
    (h : run (St.initial app env) ls = some s)
    (hk : Runs.Meets step KeepsMarks (St.initial app env) ls) :
    s.d.fds.Marks ∧ (∀ fd ∈ s.d.fds.availableFDs, s.d.fds.Blank fd) ∧
    (∀ fd conn addr, s.d.fds.fakeAcceptedSockets.find fd = some (conn, addr) →
      ∃ sock, s.d.fds.sockets.find fd = some sock ∧ conn ∈ s.d.arrived sock) := by
  have hs : Kept s := Runs.run_induction (fun _ _ _ hs hk h => hs.step hk h)
    (Kept.initial app env) h hk
  refine ⟨hs.marked.marks, fun fd hfd => hs.marked.blank fun hs' => ?_, fun _ _ _ => hs.marked.arrived⟩
  exact Finset.disjoint_left.mp hs.partition.available_sockets hfd hs'

/-- A TCP socket listens, a connection arrives, the socket is closed. -/
def closeEnv : Env :=
  .script [.entry (.socket AF_INET SOCK_STREAM 0), .exit 0, .entry (.listen 100 1), .exit 0,
    .entry (.close 100), .exit 0] []

theorem marks_of_run_listen :
    ∃ s, run (St.initial {} closeEnv) [⟨0, .fire 0⟩, ⟨0, .fire 0⟩, ⟨0, .incoming 0 none⟩] = some s ∧
      s.d.fds.fakeAcceptedSockets.keys = {100} ∧ s.d.fds.Marks := by
  have hrun : (run (St.initial {} closeEnv)
      [⟨0, .fire 0⟩, ⟨0, .fire 0⟩, ⟨0, .incoming 0 none⟩]).any
      (fun s => s.d.fds.fakeAcceptedSockets.keys = {100}) = true := by
    decide +kernel
  obtain ⟨s, hs, hview⟩ := (Option.any_eq_true _ _).mp hrun
  exact ⟨s, hs, of_decide_eq_true hview, (marks_of_run hs (by decide +kernel)).1⟩

/-- The waiting connection outlives the socket. -/
theorem close_leaves_connection :
    ¬ ∀ app env ls s, run (St.initial app env) ls = some s → s.d.fds.Marks := by
  intro hall
  have hrun : (run (St.initial {} closeEnv)
      [⟨0, .fire 0⟩, ⟨0, .fire 0⟩, ⟨0, .incoming 0 none⟩, ⟨0, .fire 0⟩]).any
      (fun s => 100 ∈ s.d.fds.fakeAcceptedSockets.keys ∧ 100 ∉ s.d.fds.isListenTcpSocket) = true := by
    decide +kernel
  obtain ⟨s, hs, hview⟩ := (Option.any_eq_true _ _).mp hrun
  obtain ⟨hw, hl⟩ := of_decide_eq_true hview
  exact hl ((hall _ _ _ s hs).waiting hw)

end Grail
