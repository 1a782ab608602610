import Grail.Connections
import Grail.DescriptorNumbers

/-! # Sockets get one number

`Spent d o`: no number can be given to the socket `o` any more.  A step gives a number only to a
socket that is not spent, and spends it: an ns-3 socket is new or waits in `m_fakeAcceptedSockets`,
from where `accept` takes it, and a netlink socket is new.

So no socket gets a second number in a run: a connection is accepted at most once, and what has been
closed does not come back.  In particular no socket has two numbers (`run_socketNumbers`). -/

namespace Grail

variable {s s' : St} {l : Label} {d d' : Data} {fd : Fd} {sock : SockId} {nl : NlId} {p : Pid}
  {call : Syscall}

/-! ### Netlink sockets -/

/-- At most one netlink socket is made, and a new entry of `m_netlinks` names it. -/
inductive NlMade (d d' : Data) : Prop
  | kept : d'.nextNl = d.nextNl →
      (∀ ⦃fd nl⦄, d'.fds.netlinks.find fd = some nl → d.fds.netlinks.find fd = some nl) →
      NlMade d d'
  | made {fd : Fd} : d'.nextNl = d.nextNl + 1 →
      d'.fds.netlinks = d.fds.netlinks.assign fd d.nextNl → NlMade d d'

namespace NlMade

theorem same (hnext : d'.nextNl = d.nextNl) (h : d'.fds.netlinks = d.fds.netlinks) : NlMade d d' :=
  .kept hnext fun _ _ hfd => h ▸ hfd

theorem le (h : NlMade d d') : d.nextNl ≤ d'.nextNl := by
  cases h with
  | kept hnext => exact hnext.ge
  | made hnext => exact hnext ▸ Nat.le_succ _

/-- Descriptors name netlink sockets that have been made. -/
theorem named (h : NlMade d d') (hd : ∀ fd nl, d.fds.netlinks.find fd = some nl → nl < d.nextNl)
    (hfd : d'.fds.netlinks.find fd = some nl) : nl < d'.nextNl := by
  cases h with
  | kept hnext hkept => exact hnext ▸ hd fd nl (hkept hfd)
  | @made fd' hnext hmade =>
      rw [hmade, StdMap.find_assign] at hfd
      rw [hnext]
      split_ifs at hfd
      · cases hfd
        exact Nat.lt_succ_self _
      · exact (hd fd nl hfd).trans (Nat.lt_succ_self _)

/-- A netlink socket that gets a number is new. -/
theorem new (h : NlMade d d') (hold : d.fds.netlinks.find fd = none)
    (hnew : d'.fds.netlinks.find fd = some nl) : nl = d.nextNl := by
  cases h with
  | kept _ hkept => cases hold.symm.trans (hkept hnew)
  | made _ hmade =>
      rw [hmade, StdMap.find_assign] at hnew
      split_ifs at hnew
      · cases hnew
        rfl
      · cases hold.symm.trans hnew

end NlMade

theorem Quiet.nlMade {d₁ : Data} (hq : Quiet d₁ d') (h : NlMade d d₁) : NlMade d d' := by
  cases h with
  | kept hnext hkept => exact .kept (hq.nextNl.trans hnext) (by rwa [hq.fds])
  | made hnext hmade => exact .made (hq.nextNl.trans hnext) (by rwa [hq.fds])

theorem Edit.nlMade (h : Edit call p d d') : NlMade d d' := by
  cases h with
  | quiet hq => exact hq.nlMade (.same rfl rfl)
  | random _ hq => exact hq.nlMade (.same rfl rfl)
  | socket _ hq => exact hq.nlMade (.same rfl rfl)
  | tcpSocket _ hq => exact hq.nlMade (.same rfl rfl)
  | netlink _ hq => exact hq.nlMade (.made rfl rfl)
  | closeSocket _ _ hq => exact hq.nlMade (.same rfl rfl)
  | closeNetlink _ _ _ hq =>
      refine hq.nlMade (.kept rfl fun fd nl hfd => ?_)
      have hfd : (d.fds.netlinks.erase _).find fd = some nl := hfd
      rw [StdMap.find_erase] at hfd
      split_ifs at hfd
      exact hfd
  | closeRandom _ _ hq => exact hq.nlMade (.same rfl rfl)
  | nonblocking _ hq => exact hq.nlMade (.same rfl rfl)
  | listenFailed _ _ hq => exact hq.nlMade (.same rfl rfl)

theorem NlStep.nextNl (h : NlStep nl s s') : s'.d.nextNl = s.d.nextNl := by
  cases h <;> rfl

theorem NlWork.nlMade (h : NlWork nl s s') : NlMade s.d s'.d := by
  refine .same ?_ (congrArg Fds.netlinks h.same.fds)
  induction h with
  | refl => rfl
  | tail _ hstep ih => exact hstep.nextNl.trans ih

theorem returning_nlMade (w : Option SockId) (conn : SockId) (h : NlMade d s.d) :
    NlMade d (s.returning w conn).d := by
  unfold St.returning
  cases w with
  | none => exact h
  | some sock =>
      simp only
      split_ifs
      · cases h with
        | kept hnext hkept => exact .kept hnext hkept
        | made hnext hmade => exact .made hnext hmade
      · exact h

theorem Handled.nlMade {res : SyscallHandlerStatusCode} (h : Handled call s res s')
    (hres : res ≠ .error) : NlMade s.d s'.d := by
  cases h with
  | error => exact absurd rfl hres
  | answered _ _ _ he => exact he.nlMade
  | listened _ _ _ _ hq => exact hq.nlMade (.same rfl rfl)
  | accepted _ _ _ _ hq => exact returning_nlMade _ _ (hq.nlMade (.same rfl rfl))
  | nlSend _ _ hw => exact hw.nlMade
  | nlOther _ _ _ hq => exact hq.nlMade (.same rfl rfl)
  | passed _ _ _ hq => exact hq.nlMade (.same rfl rfl)
  | unadvanced _ _ hq => exact hq.nlMade (.same rfl rfl)
  | recvNow _ _ _ hq => exact hq.nlMade (.same rfl rfl)
  | connectRefused _ _ _ hq => exact hq.nlMade (.same rfl rfl)
  | connectWait _ _ _ hq => exact hq.nlMade (.same rfl rfl)
  | connectNow _ _ _ hq => exact hq.nlMade (.same rfl rfl)
  | selectNow _ _ _ hq => exact hq.nlMade (.same rfl rfl)
  | _ => exact .same rfl rfl

theorem step_nlMade (h : step s l = some s') : NlMade s.d s'.d := by
  obtain ⟨-, -, h⟩ := step_cases h
  generalize l.what = what at h
  cases h with
  | @fired i e _ he _ hf =>
      obtain ⟨t, kind⟩ := e
      cases hf with
      | dispatched hc hth ha hp =>
          rw [hp.d]
          exact ha.handled.nlMade hp.ne_error
      | removed hq => exact hq.nlMade (.same rfl rfl)
      | _ => exact .same rfl rfl
  | receivedRead _ _ hq => exact hq.nlMade (.same rfl rfl)
  | incomingLost _ _ hq => exact hq.nlMade (.same rfl rfl)
  | incomingStored _ _ hq => exact hq.nlMade (.same rfl rfl)
  | incomingSelect _ _ _ _ hq => exact hq.nlMade (.same rfl rfl)
  | incomingAccept _ _ _ hq => exact returning_nlMade _ _ (hq.nlMade (.same rfl rfl))
  | connected => exact .same rfl rfl
  | _ => exact .same rfl rfl

/-! ### ns-3 sockets -/

/-- At most one ns-3 socket is made, which gets a number or waits for `accept`, or one that waits
gets a number. -/
inductive SockMade (d d' : Data) : Prop
  | kept : d.nextSock ≤ d'.nextSock → d'.fds.fakeAcceptedSockets = d.fds.fakeAcceptedSockets →
      (∀ ⦃fd sock⦄, d'.fds.sockets.find fd = some sock → d.fds.sockets.find fd = some sock) →
      SockMade d d'
  | made {fd : Fd} : d'.nextSock = d.nextSock + 1 →
      d'.fds.fakeAcceptedSockets = d.fds.fakeAcceptedSockets →
      d'.fds.sockets = d.fds.sockets.assign fd d.nextSock → SockMade d d'
  | waits {fd : Fd} {addr : Option (ℕ × ℕ)} : d'.nextSock = d.nextSock + 1 →
      d'.fds.fakeAcceptedSockets = d.fds.fakeAcceptedSockets.assign fd (d.nextSock, addr) →
      d'.fds.sockets = d.fds.sockets → SockMade d d'
  | accepted {fd fd' : Fd} {conn : SockId} {addr : Option (ℕ × ℕ)} :
      d.fds.fakeAcceptedSockets.find fd = some (conn, addr) → d'.nextSock = d.nextSock →
      d'.fds.fakeAcceptedSockets = d.fds.fakeAcceptedSockets.erase fd →
      d'.fds.sockets = d.fds.sockets.assign fd' conn → SockMade d d'

theorem SameTables.sockMade {d₁ : Data} (h : SameTables d₁ d') (hm : SockMade d d₁) :
    SockMade d d' := by
  cases hm with
  | kept hnext hw hs => exact .kept (h.nextSock ▸ hnext) (by rw [h.fds, hw]) (by rwa [h.fds])
  | made hnext hw hs =>
      exact .made (h.nextSock.trans hnext) (by rw [h.fds, hw]) (by rw [h.fds, hs])
  | waits hnext hw hs =>
      exact .waits (h.nextSock.trans hnext) (by rw [h.fds, hw]) (by rw [h.fds, hs])
  | accepted hc hnext hw hs =>
      exact .accepted hc (h.nextSock.trans hnext) (by rw [h.fds, hw]) (by rw [h.fds, hs])

theorem SockMade.same (hnext : d'.nextSock = d.nextSock) (hs : d'.fds.sockets = d.fds.sockets)
    (hw : d'.fds.fakeAcceptedSockets = d.fds.fakeAcceptedSockets) : SockMade d d' :=
  .kept hnext.ge hw fun _ _ hfd => hs ▸ hfd

theorem TableStep.sockMade (h : TableStep s l d') : SockMade s.d d' := by
  cases h with
  | same h => exact h.sockMade (.same rfl rfl rfl)
  | random _ h => exact h.sockMade (.same rfl rfl rfl)
  | socket _ h => exact h.sockMade (.made rfl rfl rfl)
  | tcpSocket _ h => exact h.sockMade (.made rfl rfl rfl)
  | netlink _ h => exact h.sockMade (.same rfl rfl rfl)
  | closeSocket _ _ h =>
      refine h.sockMade (.kept le_rfl rfl fun fd sock hfd => ?_)
      have hfd : (s.d.fds.sockets.erase _).find fd = some sock := hfd
      rw [StdMap.find_erase] at hfd
      split_ifs at hfd
      exact hfd
  | closeNetlink _ h => exact h.sockMade (.same rfl rfl rfl)
  | closeRandom _ h => exact h.sockMade (.same rfl rfl rfl)
  | nonblocking _ h => exact h.sockMade (.same rfl rfl rfl)
  | listenFailed _ _ h => exact h.sockMade (.same rfl rfl rfl)
  | listened _ _ h => exact h.sockMade (.same rfl rfl rfl)
  | accepted hw _ h => exact h.sockMade (.accepted hw rfl rfl rfl)
  | connectNow _ h => exact h.sockMade (.same rfl rfl rfl)
  | connected _ _ h => exact h.sockMade (.same rfl rfl rfl)
  | lost _ h => exact h.sockMade (.kept (Nat.le_succ _) rfl fun _ _ hfd => hfd)
  | stored _ _ h => exact h.sockMade (.waits rfl rfl rfl)
  | selectStored _ _ _ h => exact h.sockMade (.waits rfl rfl rfl)
  | acceptedNow _ _ h => exact h.sockMade (.made rfl rfl rfl)

/-! ### What is spent -/

/-- The socket gets no number from now on. -/
def Spent (d : Data) : Obj → Prop
  | .socket sock => sock < d.nextSock ∧
      ∀ fd addr, d.fds.fakeAcceptedSockets.find fd ≠ some (sock, addr)
  | .netlink nl => nl < d.nextNl
  | .randomDevice => True

/-- No step gives a spent socket back. -/
theorem SockMade.spent (h : SockMade d d') (hspent : Spent d (.socket sock)) :
    Spent d' (.socket sock) := by
  obtain ⟨hlt, hwaits⟩ := hspent
  cases h with
  | kept hnext hw => exact ⟨hlt.trans_le hnext, by rwa [hw]⟩
  | made hnext hw => exact ⟨hnext ▸ hlt.trans (Nat.lt_succ_self _), by rwa [hw]⟩
  | waits hnext hw =>
      refine ⟨hnext ▸ hlt.trans (Nat.lt_succ_self _), fun fd addr hfd => ?_⟩
      rw [hw, StdMap.find_assign] at hfd
      split_ifs at hfd
      · cases hfd
        exact hlt.false
      · exact hwaits fd addr hfd
  | accepted _ hnext hw =>
      refine ⟨hnext ▸ hlt, fun fd addr hfd => ?_⟩
      rw [hw, StdMap.find_erase] at hfd
      split_ifs at hfd
      exact hwaits fd addr hfd

/-- A socket that gets a number is not spent before, but after the step. -/
theorem SockMade.new {cbs : SockId → Option AcceptCallback} (h : SockMade d d')
    (ho : Owned d.fds cbs d.nextSock) (hold : d.fds.sockets.find fd = none)
    (hnew : d'.fds.sockets.find fd = some sock) :
    ¬ Spent d (.socket sock) ∧ Spent d' (.socket sock) := by
  cases h with
  | kept _ _ hs => cases hold.symm.trans (hs hnew)
  | made hnext hw hs =>
      rw [hs, StdMap.find_assign] at hnew
      split_ifs at hnew
      · cases hnew
        refine ⟨fun hspent => hspent.1.false, hnext ▸ Nat.lt_succ_self _, fun fd' addr hfd => ?_⟩
        exact (ho.waiting_lt (hw ▸ hfd)).false
      · cases hold.symm.trans hnew
  | waits _ _ hs => cases hold.symm.trans (hs ▸ hnew)
  | @accepted fd₁ fd' conn addr hc hnext hw hs =>
      rw [hs, StdMap.find_assign] at hnew
      split_ifs at hnew
      · cases hnew
        refine ⟨fun hspent => hspent.2 fd₁ addr hc, hnext ▸ ho.waiting_lt hc, ?_⟩
        intro fd₂ addr' hfd
        rw [hw, StdMap.find_erase] at hfd
        split_ifs at hfd with hne
        exact hne (ho.waiting_inj hfd hc)
      · cases hold.symm.trans hnew

/-! ### Runs -/

/-- The socket that gets a number. -/
def numberedSocket : Numbering.Op Fd Obj → Option Obj
  | .assign _ .randomDevice => none
  | .assign _ o => some o
  | .release _ => none

/-- What holds in every state of a run. -/
structure Numbered (s : St) : Prop where
  partition : s.d.fds.Partition
  owned : s.Owned
  named : ∀ fd nl, s.d.fds.netlinks.find fd = some nl → nl < s.d.nextNl

theorem Numbered.initial (app : App) (env : Env) : Numbered (St.initial app env) where
  partition := .initial
  owned := .initial
  named fd nl h := by cases h

theorem Numbered.step (hn : Numbered s) (h : Grail.step s l = some s') : Numbered s' where
  partition := (table_step h).partition hn.partition
  owned := hn.owned.step h
  named _ _ hfd := (step_nlMade h).named hn.named hfd

theorem step_spent {o : Obj} (h : step s l = some s') (hspent : Spent s.d o) : Spent s'.d o := by
  cases o with
  | socket sock => exact (table_step h).sockMade.spent hspent
  | netlink nl => exact hspent.trans_le (step_nlMade h).le
  | randomDevice => trivial

theorem mem_numberedSocket {o : Obj} {ops : List (Numbering.Op Fd Obj)}
    (h : o ∈ ops.filterMap numberedSocket) : o ≠ .randomDevice ∧ ∃ fd, .assign fd o ∈ ops := by
  obtain ⟨op, hop, ho⟩ := List.mem_filterMap.mp h
  cases op with
  | release fd => cases ho
  | assign fd o' =>
      cases o' with
      | randomDevice => cases ho
      | socket sock =>
          cases ho
          exact ⟨by simp, fd, hop⟩
      | netlink nl =>
          cases ho
          exact ⟨by simp, fd, hop⟩

theorem mem_numberOps {o : Obj} (h : .assign fd o ∈ numberOps s l s') :
    s.d.fds.nextFD = some fd ∧ s'.d.fds.names fd = some o := by
  unfold numberOps at h
  split at h
  next => split_ifs at h <;> simp at h
  next =>
    obtain ⟨fd', hfd, hop⟩ := Option.bind_eq_some_iff.mp (Option.mem_toList.mp h)
    obtain ⟨o', hname, hassign⟩ := Option.map_eq_some_iff.mp hop
    cases hassign
    exact ⟨hfd, hname⟩

theorem length_numberOps_le : (numberOps s l s').length ≤ 1 := by
  unfold numberOps
  split
  next => split_ifs <;> simp
  next => exact Option.length_toList_le

theorem Fds.names_eq_socket {f : Fds} (h : f.names fd = some (.socket sock)) :
    f.sockets.find fd = some sock := by
  unfold names at h
  cases hs : f.sockets.find fd <;> cases hn : f.netlinks.find fd <;> simp_all

theorem Fds.names_eq_netlink {f : Fds} (h : f.names fd = some (.netlink nl)) :
    f.netlinks.find fd = some nl := by
  unfold names at h
  cases hs : f.sockets.find fd <;> cases hn : f.netlinks.find fd <;> simp_all

/-- The socket that gets a number in a step is spent by it. -/
theorem step_spends (hn : Numbered s) (h : step s l = some s') :
    ((numberOps s l s').filterMap numberedSocket).Nodup ∧
      ∀ o ∈ (numberOps s l s').filterMap numberedSocket, ¬ Spent s.d o ∧ Spent s'.d o := by
  constructor
  · refine List.nodup_iff_count_le_one.mpr fun o => List.count_le_length.trans ?_
    exact (List.length_filterMap_le _ _).trans length_numberOps_le
  · intro o ho
    obtain ⟨hne, fd, hop⟩ := mem_numberedSocket ho
    obtain ⟨hfd, hname⟩ := mem_numberOps hop
    obtain ⟨hsock, hnl, -⟩ := Fds.names_eq_none.mp (hn.partition.names_nextFD hfd)
    cases o with
    | socket sock =>
        exact (table_step h).sockMade.new hn.owned hsock (Fds.names_eq_socket hname)
    | netlink nl =>
        have hfind := Fds.names_eq_netlink hname
        have hnew := (step_nlMade h).new hnl hfind
        exact ⟨fun hspent => hspent.ne hnew, (step_nlMade h).named hn.named hfind⟩
    | randomDevice => exact absurd rfl hne

/-- No socket gets a number twice in a run, and none has two numbers. -/
theorem run_socketNumbers {app : App} {env : Env} {ls : List Label}
    (hr : run (St.initial app env) ls = some s) :
    ((Runs.emitted step numberOps (St.initial app env) ls).filterMap numberedSocket).Nodup ∧
      ∀ fd fd' o, o ≠ .randomDevice → s.d.fds.names fd = some o →
        s.d.fds.names fd' = some o → fd = fd' := by
  have hnodup := (Runs.nodup_emitted (f := numberedSocket) (S := fun s => Spent s.d)
    (fun _ _ _ hn hs => Numbered.step hn hs) (fun _ _ _ _ hs _ => step_spent hs)
    (fun _ _ _ hn hs => step_spends hn hs) (Numbered.initial app env) hr).1
  refine ⟨hnodup, fun fd fd' o hne hfd hfd' => ?_⟩
  have hassigned : ∀ x, numberedSocket (.assign x o) = some o := by
    intro x
    cases o with
    | randomDevice => exact absurd rfl hne
    | _ => rfl
  exact Numbering.one_of_nodup hassigned (run_numbering hr) hnodup (by simp) hfd hfd'

/-- A socket that listens and two connections: the first waits for its `accept`. -/
theorem run_socketNumbers_two :
    ∃ s, run (St.initial {} serverEnv) [⟨0, .fire 0⟩, ⟨0, .fire 0⟩, ⟨0, .incoming 0 none⟩,
        ⟨0, .fire 0⟩, ⟨0, .fire 0⟩, ⟨0, .incoming 0 none⟩] = some s ∧
      s.d.fds.names 102 = some (.socket 2) ∧
      ∀ fd, s.d.fds.names fd = some (.socket 2) → fd = 102 := by
  have hrun : (run (St.initial {} serverEnv) [⟨0, .fire 0⟩, ⟨0, .fire 0⟩, ⟨0, .incoming 0 none⟩,
      ⟨0, .fire 0⟩, ⟨0, .fire 0⟩, ⟨0, .incoming 0 none⟩]).any
      (fun s => s.d.fds.names 102 = some (.socket 2)) = true := by
    decide +kernel
  obtain ⟨s, hs, hview⟩ := (Option.any_eq_true _ _).mp hrun
  have hname := of_decide_eq_true hview
  exact ⟨s, hs, hname, fun fd hfd => (run_socketNumbers hs).2 fd 102 _ (by simp) hfd hname⟩

end Grail
