import Grail.Frames

/-! # The two passes of `select` agree

The first pass decides whether the call may block, the second looks at every descriptor again.  If
something requested is ready or the timeout is zero, the second pass leaves every callback and timer
alone; otherwise it installs a callback for each requested descriptor (`ArmsAll`).  The branch for a
call that may not block although it installed a callback is dead (`selectPass_not_dead`). -/

namespace Grail

open Programs SelectArgs

variable {args : SelectArgs} {d : Data} {τ : Task} {c c' : Ctl} {v : SelectLoop}

/-! ### The first pass -/

/-- A requested descriptor is ready. -/
inductive AnyReady (args : SelectArgs) (d : Data) : Prop
  | read {fd : Fd} {sock : SockId} : d.fds.sockets.find fd = some sock →
      ReadReady args d fd sock → AnyReady args d
  | write {fd : Fd} {sock : SockId} : d.fds.sockets.find fd = some sock →
      WriteReady args d fd sock → AnyReady args d
  | netlink {fd : Fd} {nl : NlId} : d.fds.netlinks.find fd = some nl →
      NetlinkReady args d fd nl → AnyReady args d

theorem NotReady.not_anyReady (h : NotReady args d) : ¬ AnyReady args d := by
  have hempty := h.readySets
  rintro (⟨hfd, hr⟩ | ⟨hfd, hr⟩ | ⟨hfd, hr⟩)
  · exact Finset.notMem_empty _ ((hempty.sockets _).mpr ⟨_, hfd, hr⟩)
  · exact Finset.notMem_empty _ ((hempty.write _).mpr ⟨_, hfd, hr⟩)
  · exact Finset.notMem_empty _ ((hempty.netlinks _).mpr ⟨_, hfd, hr⟩)

theorem anyReady_of_hasData (h : selectHasData args d d.fds.sockets.entries = some true) :
    AnyReady args d := by
  rcases selectHasData_eq_true h with ⟨kv, hkv, hr | hr⟩ | ⟨kv, hkv, hr⟩
  · exact .read (StdMap.mem_entries.mp hkv) hr
  · exact .write (StdMap.mem_entries.mp hkv) hr
  · exact .netlink (StdMap.mem_entries.mp hkv) hr

theorem netlinksHaveData_ne_none (hx : args.exceptfds = none) :
    ∀ kvs : List (Fd × NlId), netlinksHaveData args d kvs ≠ none := by
  intro kvs
  induction kvs with
  | nil => exact Option.some_ne_none _
  | cons kv kvs ih =>
      obtain ⟨fd, nl⟩ := kv
      unfold netlinksHaveData
      split_ifs with h₁ h₂
      · exact Option.some_ne_none _
      · rw [hx] at h₂
        cases h₂
      · exact ih

theorem selectHasData_ne_none (hx : args.exceptfds = none) :
    ∀ kvs : List (Fd × SockId), selectHasData args d kvs ≠ none := by
  intro kvs
  induction kvs with
  | nil => exact netlinksHaveData_ne_none hx _
  | cons kv kvs ih =>
      obtain ⟨fd, sock⟩ := kv
      unfold selectHasData
      split_ifs with h₁ h₂
      · exact Option.some_ne_none _
      · rw [hx] at h₂
        cases h₂
      · exact ih

theorem selectMayBlock_ne_none (hx : args.exceptfds = none) : selectMayBlock args d ≠ none := by
  unfold selectMayBlock
  split_ifs
  · rw [Ne, Option.map_eq_none_iff]
    exact selectHasData_ne_none hx _
  · nofun

/-- Without a set of exceptional conditions the second pass goes through. -/
theorem selectPass_ne_none (hx : args.exceptfds = none) : selectPass args d τ v ≠ none := by
  have hsocket : ∀ v kv, selectSocket args d τ v kv ≠ none := by
    intro v kv
    have hset : isSet args.exceptfds kv.1 = false := by rw [hx, isSet]
    simp [selectSocket, hset]
  have hnetlink : ∀ v kv, selectNetlink args d τ v kv ≠ none := by
    intro v kv
    unfold selectNetlink
    split_ifs <;> nofun
  unfold selectPass
  cases h₁ : Runs.run (selectSocket args d τ) v d.fds.sockets.entries with
  | none => exact absurd h₁ (Runs.run_ne_none hsocket _ _)
  | some v₁ => exact Runs.run_ne_none hnetlink _ _

/-! ### The second pass -/

/-- The task waits for data on `sock`. -/
def RecvArmed (f : Fds) (τ : Task) (c : Ctl) (sock : SockId) : Prop :=
  ∃ fd, f.sockets.find fd = some sock ∧ c.recvCallback sock = some (.select ⟨τ, fd⟩)

def SendArmed (f : Fds) (τ : Task) (c : Ctl) (sock : SockId) : Prop :=
  ∃ fd, f.sockets.find fd = some sock ∧ c.sendCallback sock = some (.select ⟨τ, fd⟩)

def AcceptArmed (f : Fds) (τ : Task) (c : Ctl) (sock : SockId) : Prop :=
  ∃ fd, f.sockets.find fd = some sock ∧ c.acceptCallback sock = some (.select ⟨τ, fd⟩)

def NlArmed (f : Fds) (τ : Task) (c : Ctl) (nl : NlId) : Prop :=
  ∃ fd, f.netlinks.find fd = some nl ∧ c.nlCallback nl = some ⟨τ, fd⟩

/-- The requested reads among `dr`, the requested writes among `dw` and the requested netlink
sockets among `dn` have a callback of `τ`, which names the same socket.  (As long as no two
descriptors name one socket it names the same descriptor.) -/
structure Covers (args : SelectArgs) (f : Fds) (τ : Task) (dw dr : List (Fd × SockId))
    (dn : List (Fd × NlId)) (c : Ctl) : Prop where
  write : ∀ kv ∈ dw, isSet args.writefds kv.1 = true → SendArmed f τ c kv.2
  accept : ∀ kv ∈ dr, isSet args.readfds kv.1 = true → kv.1 ∈ f.isListenTcpSocket →
    AcceptArmed f τ c kv.2
  recv : ∀ kv ∈ dr, isSet args.readfds kv.1 = true → kv.1 ∉ f.isListenTcpSocket →
    RecvArmed f τ c kv.2
  netlink : ∀ kv ∈ dn, isSet args.readfds kv.1 = true → NlArmed f τ c kv.2

/-- Every requested descriptor has a callback of `τ`. -/
abbrev ArmsAll (args : SelectArgs) (f : Fds) (τ : Task) (c : Ctl) : Prop :=
  Covers args f τ f.sockets.entries f.sockets.entries f.netlinks.entries c

section covers

variable {f : Fds} {dw dr : List (Fd × SockId)} {dn : List (Fd × NlId)} {fd : Fd}

/-- What holds of the elements of `done`, and of `x` if it is asked for. -/
theorem forall_snoc {α : Type} {P : α → Prop} {done : List α} {x : α} (h : ∀ y ∈ done, P y)
    (hx : P x) : ∀ y ∈ done ++ [x], P y := by
  intro y hy
  rcases List.mem_append.mp hy with hy | hy
  · exact h y hy
  · rw [List.mem_singleton] at hy
    exact hy ▸ hx

theorem SendArmed.set {sock sock' : SockId} (hfd : f.sockets.find fd = some sock)
    (h : sock' ≠ sock → SendArmed f τ c sock') :
    SendArmed f τ (c.setSendCallback sock (some (.select ⟨τ, fd⟩))) sock' := by
  by_cases hs : sock' = sock
  · subst hs
    exact ⟨fd, hfd, Function.update_self ..⟩
  · obtain ⟨fd', hfd', hcb⟩ := h hs
    exact ⟨fd', hfd', by simpa [Ctl.setSendCallback, hs] using hcb⟩

theorem RecvArmed.set {sock sock' : SockId} (hfd : f.sockets.find fd = some sock)
    (h : sock' ≠ sock → RecvArmed f τ c sock') :
    RecvArmed f τ (c.setRecvCallback sock (some (.select ⟨τ, fd⟩))) sock' := by
  by_cases hs : sock' = sock
  · subst hs
    exact ⟨fd, hfd, Function.update_self ..⟩
  · obtain ⟨fd', hfd', hcb⟩ := h hs
    exact ⟨fd', hfd', by simpa [Ctl.setRecvCallback, hs] using hcb⟩

theorem AcceptArmed.set {sock sock' : SockId} (hfd : f.sockets.find fd = some sock)
    (h : sock' ≠ sock → AcceptArmed f τ c sock') :
    AcceptArmed f τ (c.setAcceptCallback sock (some (.select ⟨τ, fd⟩))) sock' := by
  by_cases hs : sock' = sock
  · subst hs
    exact ⟨fd, hfd, Function.update_self ..⟩
  · obtain ⟨fd', hfd', hcb⟩ := h hs
    exact ⟨fd', hfd', by simpa [Ctl.setAcceptCallback, hs] using hcb⟩

theorem NlArmed.set {nl nl' : NlId} (hfd : f.netlinks.find fd = some nl)
    (h : nl' ≠ nl → NlArmed f τ c nl') :
    NlArmed f τ (c.setNlCallback nl (some ⟨τ, fd⟩)) nl' := by
  by_cases hs : nl' = nl
  · subst hs
    exact ⟨fd, hfd, Function.update_self ..⟩
  · obtain ⟨fd', hfd', hcb⟩ := h hs
    exact ⟨fd', hfd', by simpa [Ctl.setNlCallback, hs] using hcb⟩

theorem Covers.rests (h : Covers args f τ dw dr dn c) (hr : Rests c c') :
    Covers args f τ dw dr dn c' where
  write kv hkv hs := by
    rw [SendArmed, hr.sendCallback]
    exact h.write kv hkv hs
  accept kv hkv hs hl := by
    rw [AcceptArmed, hr.acceptCallback]
    exact h.accept kv hkv hs hl
  recv kv hkv hs hl := by
    rw [RecvArmed, hr.recvCallback]
    exact h.recv kv hkv hs hl
  netlink kv hkv hs := by
    rw [NlArmed, hr.nlCallback]
    exact h.netlink kv hkv hs

theorem Covers.writeStep (h : Covers args d.fds τ dw dr dn v.c) (hm : v.mayBlock = true)
    {sock : SockId} (hfd : d.fds.sockets.find fd = some sock)
    (hn : socketHasData args d fd sock = false) :
    (selectWrite args d τ fd sock v).mayBlock = true ∧
      Covers args d.fds τ (dw ++ [(fd, sock)]) dr dn (selectWrite args d τ fd sock v).c := by
  unfold selectWrite
  by_cases hs : isSet args.writefds fd = true
  · have htx := (socketHasData_eq_false hn).1 hs
    rw [if_pos hs, if_neg (by simp [htx]), if_pos hm]
    refine ⟨hm, { h with write := forall_snoc (fun kv hkv hset => ?_) fun _ => ?_ }⟩
    · exact .set hfd fun _ => h.write kv hkv hset
    · exact .set hfd fun hne => absurd rfl hne
  · rw [if_neg hs]
    exact ⟨hm, { h with write := forall_snoc h.write fun hset => absurd hset hs }⟩

theorem Covers.readStep (h : Covers args d.fds τ dw dr dn v.c) (hm : v.mayBlock = true)
    {sock : SockId} (hfd : d.fds.sockets.find fd = some sock)
    (hn : socketHasData args d fd sock = false) :
    (selectRead args d τ fd sock v).mayBlock = true ∧
      Covers args d.fds τ dw (dr ++ [(fd, sock)]) dn (selectRead args d τ fd sock v).c := by
  unfold selectRead
  by_cases hs : isSet args.readfds fd = true
  · obtain ⟨hrx, hf⟩ := (socketHasData_eq_false hn).2 hs
    rw [if_pos hs, if_neg (by simp [hrx]), if_neg (by simp [hf]), hm]
    by_cases hl : fd ∈ d.fds.isListenTcpSocket
    · rw [if_pos (by simp [hl])]
      refine ⟨hm, { h with accept := ?_, recv := ?_ }⟩
      · refine forall_snoc (fun kv hkv hset hlis => ?_) fun _ _ => ?_
        · exact .set hfd fun _ => h.accept kv hkv hset hlis
        · exact .set hfd fun hne => absurd rfl hne
      · exact forall_snoc h.recv fun _ hnl => absurd hl hnl
    · rw [if_neg (by simp [hl]), if_pos rfl]
      refine ⟨hm, { h with accept := ?_, recv := ?_ }⟩
      · exact forall_snoc h.accept fun _ hlis => absurd hlis hl
      · refine forall_snoc (fun kv hkv hset hnl => ?_) fun _ _ => ?_
        · exact .set hfd fun _ => h.recv kv hkv hset hnl
        · exact .set hfd fun hne => absurd rfl hne
  · rw [if_neg hs]
    exact ⟨hm, { h with
      accept := forall_snoc h.accept fun hset => absurd hset hs
      recv := forall_snoc h.recv fun hset => absurd hset hs }⟩

theorem Covers.netlinkStep (h : Covers args d.fds τ dw dr dn v.c) (hm : v.mayBlock = true)
    {nl : NlId} {v' : SelectLoop} (hfd : d.fds.netlinks.find fd = some nl)
    (hn : isSet args.readfds fd = true → (d.nls nl).replyQueue = [])
    (hstep : selectNetlink args d τ v (fd, nl) = some v') :
    v'.mayBlock = true ∧ Covers args d.fds τ dw dr (dn ++ [(fd, nl)]) v'.c := by
  unfold selectNetlink at hstep
  by_cases hs : isSet args.readfds fd = true
  · rw [if_pos hs, if_neg (by simpa using hn hs), if_pos hm] at hstep
    cases hstep
    refine ⟨hm, { h with netlink := forall_snoc (fun kv hkv hset => ?_) fun _ => ?_ }⟩
    · exact .set hfd fun _ => h.netlink kv hkv hset
    · exact .set hfd fun hne => absurd rfl hne
  · rw [if_neg hs] at hstep
    cases hstep
    exact ⟨hm, { h with netlink := forall_snoc h.netlink fun hset => absurd hset hs }⟩

/-- Nothing being ready, the second pass installs a callback for every requested descriptor. -/
theorem Covers.pass (hn : NotReady args d) (hm : v.mayBlock = true) {v' : SelectLoop}
    (hr : selectPass args d τ v = some v') : ArmsAll args d.fds τ v'.c := by
  obtain ⟨v₁, hs, hnl⟩ := Option.bind_eq_some_iff.mp hr
  have h₁ : v₁.mayBlock = true ∧
      Covers args d.fds τ d.fds.sockets.entries d.fds.sockets.entries [] v₁.c := by
    refine Runs.run_loop
      (I := fun done v => v.mayBlock = true ∧ Covers args d.fds τ done done [] v.c)
      ?_ ⟨hm, by simp, by simp, by simp, by simp⟩ hs
    rintro done ⟨fd, sock⟩ rest v v' hls ⟨hm, h⟩ hstep
    have hmem : (fd, sock) ∈ d.fds.sockets.entries := by simp [hls]
    have hfd := StdMap.mem_entries.mp hmem
    unfold selectSocket at hstep
    split_ifs at hstep
    cases hstep
    obtain ⟨hm₁, hw⟩ := h.writeStep hm hfd (hn.sockets _ hmem)
    exact hw.readStep hm₁ hfd (hn.sockets _ hmem)
  refine (Runs.run_loop (I := fun done v => v.mayBlock = true ∧
    Covers args d.fds τ d.fds.sockets.entries d.fds.sockets.entries done v.c) ?_ h₁ hnl).2
  rintro done ⟨fd, nl⟩ rest v v' hls ⟨hm, h⟩ hstep
  have hmem : (fd, nl) ∈ d.fds.netlinks.entries := by simp [hls]
  exact h.netlinkStep hm (StdMap.mem_entries.mp hmem) (hn.netlinks _ hmem) hstep

end covers

/-- `!may_block && does_block` is false after the second pass. -/
theorem selectPass_not_dead {mayBlock : Bool} (hm : selectMayBlock args d = some mayBlock)
    (hp : selectPass args d τ ⟨mayBlock, false, ∅, ∅, 0, c⟩ = some v) :
    ¬ (v.mayBlock = false ∧ v.doesBlock = true) := by
  cases mayBlock with
  | false =>
      have hstart : Collecting args d c [] [] [] ∅ ∅ ∅ ⟨false, false, ∅, ∅, 0, c⟩ :=
        ⟨rfl, rfl, rfl, by simp, rfl, by simp, by simp, by simp, by simp⟩
      obtain ⟨rs, rn, w, h⟩ := hstart.pass hp
      simp [h.doesBlock]
  | true =>
      have hn := (selectMayBlock_eq_true hm).2
      obtain ⟨v₁, hs, hnl⟩ := Option.bind_eq_some_iff.mp hp
      have hstart : Blocking args d τ c False ⟨true, false, ∅, ∅, 0, c⟩ :=
        ⟨rfl, rfl, rfl, rfl, SelectArms.refl _ _ _ _, nofun, fun _ => ⟨rfl, not_false⟩⟩
      have h := (hstart.sockets hn hs).netlinks hn hnl
      simp [h.mayBlock]

/-! ### The handler -/

/-- If something requested is ready or the timeout is zero, no callback and no timer differs;
otherwise every requested descriptor has a callback. -/
structure PassesAgree (args : SelectArgs) (s s' : St) : Prop where
  ready : AnyReady args s.d ∨ args.mayBlock = false → Rests s.c s'.c
  waits : ¬ AnyReady args s.d → args.mayBlock = true → ArmsAll args s.d.fds s.c.task s'.c

/-- A `FAKE` touches no callback and no timer. -/
theorem fake_calm {s : St} (v : ℤ) (res : SyscallHandlerStatusCode) :
    wp (fake v res) (fun _ s' => Rests s.c s'.c) s := by
  unfold fake
  simp only [wp_bind, wp_get]
  exact wp_fakeAt (fun _ hc => (Calm.of_completes hc).toRests)
    fun _ hv => (Calm.of_vanishes hv).toRests

theorem selectAnswer_calm {s : St} (hb : v.doesBlock = false) :
    wp (selectAnswer args τ v) (fun _ s' => Rests s.c s'.c) s := by
  unfold selectAnswer
  simp only [hb, Bool.false_eq_true, if_false, wp_bind, wp_get]
  refine wp_storeFdSets ?_
  rw [wp_ite]
  refine ⟨fun _ => ?_, fun _ => fake_calm _ _⟩
  rw [wp_bind]
  exact wp_memcpyToTracee fun st => fake_calm _ _

theorem selectBlock_covers {s : St} {f : Fds} {τ' : Task} (h : ArmsAll args f τ s.c) :
    wp (selectBlock args τ') (fun _ s' => ArmsAll args f τ s'.c) s := by
  unfold selectBlock
  cases args.timeout with
  | none => exact (wp_pure _ _ _).mpr h
  | some t =>
      simp only [wp_bind, wp_schedule, wp_pure]
      exact fun _ => ⟨h.write, h.accept, h.recv, h.netlink⟩

theorem handleSelect_agrees {s : St} (hx : args.exceptfds = none) :
    wp (handleSelect args) (fun _ s' => PassesAgree args s s') s := by
  unfold handleSelect
  simp only [wp_bind, wp_get, wp_modifyData]
  cases hm : selectMayBlock args s.d with
  | none => exact absurd hm (selectMayBlock_ne_none hx)
  | some mayBlock =>
      simp only
      cases hp : selectPass args s.d s.c.task ⟨mayBlock, false, ∅, ∅, 0, s.c⟩ with
      | none => exact absurd hp (selectPass_ne_none hx)
      | some v =>
          simp only [wp_bind, wp_modifyCtl]
          cases mayBlock with
          | false =>
              have hstart : Collecting args s.d s.c [] [] [] ∅ ∅ ∅ ⟨false, false, ∅, ∅, 0, s.c⟩ :=
                ⟨rfl, rfl, rfl, by simp, rfl, by simp, by simp, by simp, by simp⟩
              obtain ⟨rs, rn, w, h⟩ := hstart.pass hp
              rw [h.mayBlock, h.c]
              refine (selectAnswer_calm h.doesBlock).mono fun _ s' hr => ⟨fun _ => hr, ?_⟩
              intro hnot hmay
              exact absurd (anyReady_of_hasData (selectMayBlock_eq_false hm hmay)) hnot
          | true =>
              obtain ⟨hmay, hn⟩ := selectMayBlock_eq_true hm
              have hall : ArmsAll args s.d.fds s.c.task v.c := Covers.pass hn rfl hp
              have hagrees : ∀ s', ArmsAll args s.d.fds s.c.task s'.c → PassesAgree args s s' := by
                refine fun s' harms => ⟨fun hready => ?_, fun _ _ => harms⟩
                rcases hready with hready | hready
                · exact absurd hready hn.not_anyReady
                · rw [hmay] at hready
                  cases hready
              have hdead := selectPass_not_dead hm hp
              by_cases hb : v.doesBlock = true
              · have hmb : v.mayBlock = true := by
                  by_contra hmb
                  exact hdead ⟨eq_false_of_ne_true hmb, hb⟩
                rw [hmb, hb]
                exact (selectBlock_covers hall).mono fun _ s' harms => hagrees s' harms
              · rw [eq_false_of_ne_true hb, Bool.and_false]
                refine (selectAnswer_calm (eq_false_of_ne_true hb)).mono fun _ s' hr => ?_
                exact hagrees s' (hall.rests hr)

end Grail
