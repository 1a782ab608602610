import Grail.Allocation

/-! # Sockets and their names

`Owned`: every ns-3 socket has at most one descriptor; a connection that waits in
`m_fakeAcceptedSockets` has none, and waits under one descriptor only; no accept callback has
been registered on it.  Numbers of sockets are never reused, so this holds after every run
(`owned_of_run`). -/

namespace Grail

variable {s s' : St} {l : Label}

/-! ### The accept callbacks -/

/-- The descriptor that an accept callback captured. -/
def AcceptCallback.sockfd : AcceptCallback → Fd
  | .fakeAccept sockfd => sockfd
  | .select cl => cl.fdnr
  | .accept _ sockfd _ => sockfd

/-- The accept callback `cb` was registered on `sock` by a call on a listening descriptor. -/
def Registered (f f' : Fds) (sock : SockId) (cb : AcceptCallback) : Prop :=
  f.sockets.find cb.sockfd = some sock ∧ cb.sockfd ∈ f'.isListenTcpSocket

theorem Calm.accept_kept {c c' : Ctl} (h : Calm c c') {sock : SockId} {cb : AcceptCallback}
    (hcb : c'.acceptCallback sock = some cb) : c.acceptCallback sock = some cb := by
  rwa [h.acceptCallback] at hcb

theorem NlStep.acceptCallback {nl : NlId} (h : NlStep nl s s') :
    s'.c.acceptCallback = s.c.acceptCallback := by
  cases h with
  | push => rfl
  | route => rfl
  | notify _ _ _ hf => exact (Calm.of_finish hf).acceptCallback

theorem NlWork.acceptCallback {nl : NlId} (h : NlWork nl s s') :
    s'.c.acceptCallback = s.c.acceptCallback := by
  induction h with
  | refl => rfl
  | tail _ hstep ih => exact hstep.acceptCallback.trans ih

theorem Handled.accept_slot {call : Syscall} {res : SyscallHandlerStatusCode}
    (h : Handled call s res s') (hres : res ≠ .error) {sock : SockId} {cb : AcceptCallback}
    (hcb : s'.c.acceptCallback sock = some cb) :
    s.c.acceptCallback sock = some cb ∨ Registered s.d.fds s'.d.fds sock cb := by
  cases h with
  | error => exact absurd rfl hres
  | answered _ _ _ _ hpre hc =>
      exact Or.inl (((Calm.of_prelude hpre).trans (Calm.of_completes hc)).accept_kept hcb)
  | @listened fd _ sock' d' c' _ hsock _ _ hq hc =>
      by_cases hk : sock = sock'
      · subst hk
        simp only [Ctl.setAcceptCallback, Function.update_self, Option.some.injEq] at hcb
        subst hcb
        refine Or.inr ⟨hsock, ?_⟩
        rw [hq.fds]
        exact Finset.mem_insert_self _ _
      · simp only [Ctl.setAcceptCallback, Function.update_of_ne hk] at hcb
        exact Or.inl ((Calm.of_completes hc).accept_kept hcb)
  | accepted _ _ _ _ _ hc =>
      rw [St.returning_c] at hcb
      exact Or.inl ((Calm.of_completes hc).accept_kept hcb)
  | nlSend _ _ hw hc =>
      have hcb := (Calm.of_completes hc).accept_kept hcb
      rw [hw.acceptCallback] at hcb
      exact Or.inl hcb
  | nlOther _ _ _ _ hc => exact Or.inl ((Calm.of_completes hc).accept_kept hcb)
  | passed _ _ _ _ hc => exact Or.inl ((Calm.of_passes hc).accept_kept hcb)
  | cloned _ hc => exact Or.inl (((Calm.of_passes hc).trans (Calm.cloned _ _)).accept_kept hcb)
  | unadvanced => exact Or.inl hcb
  | systemExit => exact Or.inl hcb
  | recvNow _ _ _ _ hc => exact Or.inl ((Calm.of_reads hc).accept_kept hcb)
  | recvWait => exact Or.inl hcb
  | writeWait => exact Or.inl hcb
  | connectRefused => exact Or.inl hcb
  | connectWait => exact Or.inl hcb
  | connectNow _ _ _ _ hc => exact Or.inl ((Calm.of_finish hc).accept_kept hcb)
  | @acceptWait fd out sock' _ hsock hl =>
      by_cases hk : sock = sock'
      · subst hk
        simp only [Ctl.setAcceptCallback, Function.update_self, Option.some.injEq] at hcb
        subst hcb
        exact Or.inr ⟨hsock, hl⟩
      · simp only [Ctl.setAcceptCallback, Function.update_of_ne hk] at hcb
        exact Or.inl hcb
  | selectNow _ _ _ _ hc => exact Or.inl ((Calm.of_completes hc).accept_kept hcb)
  | @selectWait args c₁ c' _ _ harms _ ht =>
      have hcb : c₁.acceptCallback sock = some cb := by
        cases ht with
        | none => exact hcb
        | timer => exact hcb
      rcases harms.accept sock with h | ⟨fd, hsock, _, hl, _, h⟩
      · exact Or.inl (h ▸ hcb)
      · rw [h, Option.some.injEq] at hcb
        subst hcb
        exact Or.inr ⟨hsock, hl⟩
  | sleeping => exact Or.inl hcb

/-- A step registers accept callbacks only for listening descriptors. -/
theorem accept_slot (h : step s l = some s') {sock : SockId} {cb : AcceptCallback}
    (hcb : s'.c.acceptCallback sock = some cb) :
    s.c.acceptCallback sock = some cb ∨ Registered s.d.fds s'.d.fds sock cb := by
  obtain ⟨-, -, h⟩ := step_cases h
  generalize l.what = what at h
  cases h with
  | @fired i e _ he _ hf =>
      obtain ⟨t, kind⟩ := e
      cases hf with
      | gone => exact Or.inl hcb
      | dispatched hc hth hh hp =>
          have hs : _ ∨ Registered _ _ sock cb :=
            hh.handled.accept_slot hp.ne_error (hp.calm.accept_kept hcb)
          rw [hp.d]
          rcases hs with h | h
          · exact Or.inl ((Calm.of_caught hc).accept_kept h)
          · exact Or.inr h
      | timeoutStale => exact Or.inl hcb
      | timeout _ hc => exact Or.inl ((Calm.of_finish hc).accept_kept hcb)
      | slept hc => exact Or.inl ((Calm.of_finish hc).accept_kept hcb)
      | removed => exact Or.inl hcb
  | receivedIdle => exact Or.inl hcb
  | receivedRead _ _ _ hc => exact Or.inl ((Calm.of_reads hc).accept_kept hcb)
  | receivedSelect _ _ _ hc => exact Or.inl ((Calm.of_finish hc).accept_kept hcb)
  | sendableIdle => exact Or.inl hcb
  | sendableSelect _ _ _ hc => exact Or.inl ((Calm.of_finish hc).accept_kept hcb)
  | incomingLost => exact Or.inl hcb
  | incomingStored => exact Or.inl hcb
  | @incomingSelect _ sock' _ _ _ _ _ _ _ _ _ _ _ hc =>
      have hcb := (Calm.of_finish hc).accept_kept hcb
      by_cases hk : sock = sock'
      · subst hk
        simp [Ctl.setAcceptCallback] at hcb
      · simp only [Ctl.setAcceptCallback, Function.update_of_ne hk] at hcb
        exact Or.inl hcb
  | incomingAccept _ _ _ _ hc =>
      exact Or.inl ((Calm.of_finish ⟨_, hc, rfl⟩).accept_kept hcb)
  | connectIdle => exact Or.inl hcb
  | connected _ _ hc => exact Or.inl ((Calm.of_finish hc).accept_kept hcb)
  | refused _ _ hc => exact Or.inl ((Calm.of_finish hc).accept_kept hcb)

/-! ### Ownership -/

/-- The sockets that the tables `f` name and the accept callbacks `cbs`, when `n` sockets have
been created. -/
structure Owned (f : Fds) (cbs : SockId → Option AcceptCallback) (n : SockId) : Prop where
  named_lt {fd sock} : f.sockets.find fd = some sock → sock < n
  named_inj {fd fd' sock} : f.sockets.find fd = some sock → f.sockets.find fd' = some sock → fd = fd'
  waiting_lt {fd conn addr} : f.fakeAcceptedSockets.find fd = some (conn, addr) → conn < n
  waiting_unnamed {fd conn addr fd'} : f.fakeAcceptedSockets.find fd = some (conn, addr) →
    f.sockets.find fd' ≠ some conn
  waiting_inj {fd fd' conn addr addr'} : f.fakeAcceptedSockets.find fd = some (conn, addr) →
    f.fakeAcceptedSockets.find fd' = some (conn, addr') → fd = fd'
  callback_lt {sock cb} : cbs sock = some cb → sock < n
  waiting_silent {fd conn addr cb} : f.fakeAcceptedSockets.find fd = some (conn, addr) →
    cbs conn ≠ some cb

namespace Owned

variable {f : Fds} {cbs : SockId → Option AcceptCallback} {n : SockId} {fd : Fd}

theorem initial : Owned .initial (fun _ => none) 0 := by
  constructor <;> simp [Fds.initial]

/-- Only the two maps matter. -/
theorem congr {f' : Fds} (h : Owned f cbs n) (hs : f'.sockets = f.sockets)
    (hw : f'.fakeAcceptedSockets = f.fakeAcceptedSockets) : Owned f' cbs n := by
  obtain ⟨hlt, hinj, hwlt, hun, hwinj, hclt, hsil⟩ := h
  constructor <;> grind

theorem addSocket (h : Owned f cbs n) (fd : Fd) : Owned (f.addSocket fd n) cbs (n + 1) := by
  obtain ⟨hlt, hinj, hwlt, hun, hwinj, hclt, hsil⟩ := h
  constructor <;> grind [Fds.addSocket, StdMap.find_assign]

theorem closeSocket (h : Owned f cbs n) (fd : Fd) : Owned (f.closeSocket fd) cbs n := by
  obtain ⟨hlt, hinj, hwlt, hun, hwinj, hclt, hsil⟩ := h
  constructor <;> grind [Fds.closeSocket, StdMap.find_erase]

/-- A waiting connection is accepted. -/
theorem accept (h : Owned f cbs n) {conn : SockId} {addr : Option (ℕ × ℕ)}
    (hw : f.fakeAcceptedSockets.find fd = some (conn, addr)) (fd' : Fd) :
    Owned ((f.eraseFakeAccepted fd).addSocket fd' conn) cbs n := by
  obtain ⟨hlt, hinj, hwlt, hun, hwinj, hclt, hsil⟩ := h
  constructor <;>
    grind [Fds.addSocket, Fds.eraseFakeAccepted, StdMap.find_assign, StdMap.find_erase]

/-- A new connection waits. -/
theorem fakeAccept (h : Owned f cbs n) (fd : Fd) (addr : Option (ℕ × ℕ)) :
    Owned (f.fakeAccept fd (n, addr)) cbs (n + 1) := by
  obtain ⟨hlt, hinj, hwlt, hun, hwinj, hclt, hsil⟩ := h
  constructor <;> grind [Fds.fakeAccept, StdMap.find_assign]

/-- A socket without a name. -/
theorem lose (h : Owned f cbs n) : Owned f cbs (n + 1) := by
  obtain ⟨hlt, hinj, hwlt, hun, hwinj, hclt, hsil⟩ := h
  constructor <;> grind

/-- Callbacks are registered on named sockets only. -/
theorem callbacks (h : Owned f cbs n) {cbs' : SockId → Option AcceptCallback}
    (hc : ∀ sock cb, cbs' sock = some cb →
      cbs sock = some cb ∨ f.sockets.find cb.sockfd = some sock) : Owned f cbs' n := by
  obtain ⟨hlt, hinj, hwlt, hun, hwinj, hclt, hsil⟩ := h
  constructor <;> grind

end Owned

/-- The sockets of `s` are owned as they should be. -/
abbrev St.Owned (s : St) : Prop := Grail.Owned s.d.fds s.c.acceptCallback s.d.nextSock

theorem SameTables.owned {d d' : Data} {cbs : SockId → Option AcceptCallback}
    (h : SameTables d d') (ho : Owned d.fds cbs d.nextSock) : Owned d'.fds cbs d'.nextSock := by
  rw [h.fds, h.nextSock]
  exact ho

theorem TableStep.owned {d' : Data} {cbs : SockId → Option AcceptCallback}
    (h : TableStep s l d') (ho : Owned s.d.fds cbs s.d.nextSock) :
    Owned d'.fds cbs d'.nextSock := by
  cases h with
  | same h => exact h.owned ho
  | random _ h => exact h.owned (ho.congr rfl rfl)
  | @socket fd _ _ h => exact h.owned ((ho.addSocket fd).congr rfl rfl)
  | @tcpSocket fd _ _ h => exact h.owned ((ho.addSocket fd).congr rfl rfl)
  | netlink _ h => exact h.owned (ho.congr rfl rfl)
  | closeSocket _ _ h => exact h.owned (ho.closeSocket _)
  | closeNetlink _ h => exact h.owned (ho.congr rfl rfl)
  | closeRandom _ h => exact h.owned (ho.congr rfl rfl)
  | nonblocking _ h => exact h.owned (ho.congr rfl rfl)
  | listenFailed _ _ h => exact h.owned (ho.congr rfl rfl)
  | listened _ _ h => exact h.owned (ho.congr rfl rfl)
  | @accepted fd fd' conn addr hw _ h => exact h.owned ((ho.accept hw fd').congr rfl rfl)
  | connectNow _ h => exact h.owned (ho.congr rfl rfl)
  | connected _ _ h => exact h.owned (ho.congr rfl rfl)
  | lost _ h => exact h.owned (ho.lose)
  | stored _ _ h => exact h.owned (ho.fakeAccept _ _)
  | selectStored _ _ _ h => exact h.owned (ho.fakeAccept _ _)
  | @acceptedNow _ _ _ _ fd' _ _ h => exact h.owned ((ho.addSocket fd').congr rfl rfl)

theorem St.Owned.step (ho : s.Owned) (h : Grail.step s l = some s') : s'.Owned :=
  (table_step h).owned (ho.callbacks fun _ _ hcb => (accept_slot h hcb).imp_right And.left)

theorem owned_of_run {app : App} {env : Env} {ls : List Label} {s : St}
    (h : run (St.initial app env) ls = some s) : s.Owned :=
  Runs.run_invariant (I := St.Owned) (fun _ _ _ ho hs => ho.step hs) Owned.initial h

end Grail
