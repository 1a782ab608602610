import Grail.CallbackSpecs

/-! # `select` ends as `Handled` says

The first pass decides how the second one goes.  If it finds a ready descriptor, or if the call
may not block, the second pass installs nothing and collects the ready descriptors
(`Collecting`).  Otherwise it finds none and installs a callback for each requested descriptor
(`Blocking`).  In particular the handler never collects and installs in one call, and its branch
for that case (`!may_block && does_block`) is dead. -/

namespace Grail

open Programs SelectArgs

variable {args : SelectArgs} {d : Data} {τ : Task} {c₀ : Ctl}

/-! ### The first pass -/

/-- No requested descriptor is ready. -/
structure NotReady (args : SelectArgs) (d : Data) : Prop where
  sockets : ∀ kv ∈ d.fds.sockets.entries, socketHasData args d kv.1 kv.2 = false
  netlinks : ∀ kv ∈ d.fds.netlinks.entries, isSet args.readfds kv.1 = true →
    (d.nls kv.2).replyQueue = []

theorem netlinksHaveData_eq_false :
    ∀ {kvs : List (Fd × NlId)}, netlinksHaveData args d kvs = some false →
      ∀ kv ∈ kvs, isSet args.readfds kv.1 = true → (d.nls kv.2).replyQueue = []
  | [], _ => by simp
  | (fd, nl) :: kvs, h => by
      unfold netlinksHaveData at h
      split_ifs at h with h₁ h₂
      · cases h
      intro kv hkv hset
      rcases List.mem_cons.mp hkv with rfl | hkv
      · simpa [hset] using h₁
      · exact netlinksHaveData_eq_false h kv hkv hset

theorem selectHasData_eq_false :
    ∀ {kvs : List (Fd × SockId)}, selectHasData args d kvs = some false →
      (∀ kv ∈ kvs, socketHasData args d kv.1 kv.2 = false) ∧
        netlinksHaveData args d d.fds.netlinks.entries = some false
  | [], h => ⟨by simp, h⟩
  | (fd, sock) :: kvs, h => by
      unfold selectHasData at h
      split_ifs at h with h₁ h₂
      · cases h
      obtain ⟨hs, hn⟩ := selectHasData_eq_false h
      refine ⟨fun kv hkv => ?_, hn⟩
      rcases List.mem_cons.mp hkv with rfl | hkv
      · exact eq_false_of_ne_true h₁
      · exact hs kv hkv

theorem NotReady.of_hasData (h : selectHasData args d d.fds.sockets.entries = some false) :
    NotReady args d :=
  ⟨(selectHasData_eq_false h).1, netlinksHaveData_eq_false (selectHasData_eq_false h).2⟩

theorem socketHasData_eq_false {fd : Fd} {sock : SockId}
    (h : socketHasData args d fd sock = false) :
    (isSet args.writefds fd = true → d.txAvailable sock = 0) ∧
    (isSet args.readfds fd = true →
      d.rxAvailable sock = 0 ∧ d.fds.fakeAcceptedSockets.find fd = none) := by
  simp only [socketHasData, Bool.or_eq_false_iff, Bool.and_eq_false_imp] at h
  obtain ⟨⟨hw, hr⟩, hf⟩ := h
  refine ⟨fun hs => by simpa using hw hs, fun hs => ⟨by simpa using hr hs, ?_⟩⟩
  simpa using hf hs

/-! ### The second pass, nothing being ready -/

theorem SelectArms.refl (args : SelectArgs) (d : Data) (τ : Task) (c : Ctl) :
    SelectArms args d τ c c where
  frame := rfl
  recv _ := Or.inl rfl
  send _ := Or.inl rfl
  accept _ := Or.inl rfl
  nl _ := Or.inl rfl

theorem SelectArms.setSend {c : Ctl} (h : SelectArms args d τ c₀ c) {fd : Fd} {sock : SockId}
    (hfd : d.fds.sockets.find fd = some sock) (hs : isSet args.writefds fd = true)
    (htx : d.txAvailable sock = 0) :
    SelectArms args d τ c₀ (c.setSendCallback sock (some (.select ⟨τ, fd⟩))) where
  frame := congrArg (Ctl.setSendCallback sock (some (.select ⟨τ, fd⟩))) h.frame
  recv := h.recv
  send := by
    intro sock'
    by_cases hk : sock' = sock
    · subst hk
      exact Or.inr ⟨fd, hfd, hs, htx, by simp [Ctl.setSendCallback]⟩
    · simpa [Ctl.setSendCallback, hk] using h.send sock'
  accept := h.accept
  nl := h.nl

theorem SelectArms.setRecv {c : Ctl} (h : SelectArms args d τ c₀ c) {fd : Fd} {sock : SockId}
    (hfd : d.fds.sockets.find fd = some sock) (hs : isSet args.readfds fd = true)
    (hrx : d.rxAvailable sock = 0) (hl : fd ∉ d.fds.isListenTcpSocket) :
    SelectArms args d τ c₀ (c.setRecvCallback sock (some (.select ⟨τ, fd⟩))) where
  frame := congrArg (Ctl.setRecvCallback sock (some (.select ⟨τ, fd⟩))) h.frame
  recv := by
    intro sock'
    by_cases hk : sock' = sock
    · subst hk
      exact Or.inr ⟨fd, hfd, hs, hrx, hl, by simp [Ctl.setRecvCallback]⟩
    · simpa [Ctl.setRecvCallback, hk] using h.recv sock'
  send := h.send
  accept := h.accept
  nl := h.nl

theorem SelectArms.setAccept {c : Ctl} (h : SelectArms args d τ c₀ c) {fd : Fd} {sock : SockId}
    (hfd : d.fds.sockets.find fd = some sock) (hs : isSet args.readfds fd = true)
    (hl : fd ∈ d.fds.isListenTcpSocket) (hf : d.fds.fakeAcceptedSockets.find fd = none) :
    SelectArms args d τ c₀ (c.setAcceptCallback sock (some (.select ⟨τ, fd⟩))) where
  frame := congrArg (Ctl.setAcceptCallback sock (some (.select ⟨τ, fd⟩))) h.frame
  recv := h.recv
  send := h.send
  accept := by
    intro sock'
    by_cases hk : sock' = sock
    · subst hk
      exact Or.inr ⟨fd, hfd, hs, hl, hf, by simp [Ctl.setAcceptCallback]⟩
    · simpa [Ctl.setAcceptCallback, hk] using h.accept sock'
  nl := h.nl

theorem SelectArms.setNl {c : Ctl} (h : SelectArms args d τ c₀ c) {fd : Fd} {nl : NlId}
    (hfd : d.fds.netlinks.find fd = some nl) (hs : isSet args.readfds fd = true) :
    SelectArms args d τ c₀ (c.setNlCallback nl (some ⟨τ, fd⟩)) where
  frame := congrArg (Ctl.setNlCallback nl (some ⟨τ, fd⟩)) h.frame
  recv := h.recv
  send := h.send
  accept := h.accept
  nl := by
    intro nl'
    by_cases hk : nl' = nl
    · subst hk
      exact Or.inr ⟨fd, hfd, hs, by simp [Ctl.setNlCallback]⟩
    · simpa [Ctl.setNlCallback, hk] using h.nl nl'

/-- The loop invariant when nothing is ready; `asked` says that a processed descriptor was
requested. -/
structure Blocking (args : SelectArgs) (d : Data) (τ : Task) (c₀ : Ctl) (asked : Prop)
    (v : SelectLoop) : Prop where
  mayBlock : v.mayBlock = true
  newreadfds : v.newreadfds = ∅
  newwritefds : v.newwritefds = ∅
  ctx : v.ctx = 0
  arms : SelectArms args d τ c₀ v.c
  waits : v.doesBlock = true → SelectWaits τ d.fds v.c
  idle : v.doesBlock = false → v.c = c₀ ∧ ¬ asked

theorem Blocking.install {asked asked' : Prop} {v : SelectLoop}
    (h : Blocking args d τ c₀ asked v) {f : Ctl → Ctl} (ha : SelectArms args d τ c₀ (f v.c))
    (hw : SelectWaits τ d.fds (f v.c)) : Blocking args d τ c₀ asked' (v.install f) :=
  ⟨h.mayBlock, h.newreadfds, h.newwritefds, h.ctx, ha, fun _ => hw, fun hb => by cases hb⟩

theorem Blocking.mono {asked asked' : Prop} {v : SelectLoop} (h : Blocking args d τ c₀ asked v)
    (ha : asked' → asked) : Blocking args d τ c₀ asked' v :=
  { h with idle := fun hb => ⟨(h.idle hb).1, fun hn => (h.idle hb).2 (ha hn)⟩ }

theorem Blocking.write {asked : Prop} {v : SelectLoop} (h : Blocking args d τ c₀ asked v)
    {fd : Fd} {sock : SockId} (hfd : d.fds.sockets.find fd = some sock)
    (hn : socketHasData args d fd sock = false) :
    Blocking args d τ c₀ (asked ∨ isSet args.writefds fd = true)
      (selectWrite args d τ fd sock v) := by
  unfold selectWrite
  by_cases hs : isSet args.writefds fd = true
  · have htx := (socketHasData_eq_false hn).1 hs
    rw [if_pos hs, if_neg (by simp [htx]), if_pos h.mayBlock]
    exact h.install (h.arms.setSend hfd hs htx) (.send (Function.update_self sock _ _))
  · rw [if_neg hs]
    exact h.mono fun ha => ha.resolve_right hs

theorem Blocking.read {asked : Prop} {v : SelectLoop} (h : Blocking args d τ c₀ asked v)
    {fd : Fd} {sock : SockId} (hfd : d.fds.sockets.find fd = some sock)
    (hn : socketHasData args d fd sock = false) :
    Blocking args d τ c₀ (asked ∨ isSet args.readfds fd = true)
      (selectRead args d τ fd sock v) := by
  unfold selectRead
  by_cases hs : isSet args.readfds fd = true
  · obtain ⟨hrx, hf⟩ := (socketHasData_eq_false hn).2 hs
    rw [if_pos hs, if_neg (by simp [hrx]), if_neg (by simp [hf]), h.mayBlock]
    by_cases hl : fd ∈ d.fds.isListenTcpSocket
    · rw [if_pos (by simp [hl])]
      exact h.install (h.arms.setAccept hfd hs hl hf)
        (.accept (Function.update_self sock _ _))
    · rw [if_neg (by simp [hl]), if_pos rfl]
      exact h.install (h.arms.setRecv hfd hs hrx hl) (.recv (Function.update_self sock _ _))
  · rw [if_neg hs]
    exact h.mono fun ha => ha.resolve_right hs

/-- A processed socket was requested. -/
def AskedSockets (args : SelectArgs) (done : List (Fd × SockId)) : Prop :=
  ∃ kv ∈ done, isSet args.readfds kv.1 = true ∨ isSet args.writefds kv.1 = true

def AskedNetlinks (args : SelectArgs) (done : List (Fd × NlId)) : Prop :=
  ∃ kv ∈ done, isSet args.readfds kv.1 = true

theorem Blocking.sockets (hn : NotReady args d) {v v' : SelectLoop}
    (h : Blocking args d τ c₀ False v)
    (hr : Runs.run (selectSocket args d τ) v d.fds.sockets.entries = some v') :
    Blocking args d τ c₀ (AskedSockets args d.fds.sockets.entries) v' := by
  refine Runs.run_loop (I := fun done v => Blocking args d τ c₀ (AskedSockets args done) v)
    ?_ (h.mono ?_) hr
  · rintro done ⟨fd, sock⟩ rest v v' hls h hstep
    have hmem : (fd, sock) ∈ d.fds.sockets.entries := by simp [hls]
    have hfd := StdMap.mem_entries.mp hmem
    unfold selectSocket at hstep
    split_ifs at hstep with hx
    cases hstep
    have hw := h.write hfd (hn.sockets _ hmem)
    refine (hw.read hfd (hn.sockets _ hmem)).mono ?_
    rintro ⟨kv, hkv, hreq⟩
    rcases List.mem_append.mp hkv with hkv | hkv
    · exact Or.inl (Or.inl ⟨kv, hkv, hreq⟩)
    · rw [List.mem_singleton] at hkv
      subst hkv
      rcases hreq with hreq | hreq
      · exact Or.inr hreq
      · exact Or.inl (Or.inr hreq)
  · rintro ⟨kv, hkv, -⟩
    cases hkv

theorem Blocking.netlinks (hn : NotReady args d) {asked : Prop} {v v' : SelectLoop}
    (h : Blocking args d τ c₀ asked v)
    (hr : Runs.run (selectNetlink args d τ) v d.fds.netlinks.entries = some v') :
    Blocking args d τ c₀ (asked ∨ AskedNetlinks args d.fds.netlinks.entries) v' := by
  refine Runs.run_loop (I := fun done v => Blocking args d τ c₀ (asked ∨ AskedNetlinks args done) v)
    ?_ (h.mono ?_) hr
  · rintro done ⟨fd, nl⟩ rest v v' hls h hstep
    have hmem : (fd, nl) ∈ d.fds.netlinks.entries := by simp [hls]
    have hfd := StdMap.mem_entries.mp hmem
    unfold selectNetlink at hstep
    by_cases hs : isSet args.readfds fd = true
    · rw [if_pos hs, if_neg (by simpa using hn.netlinks _ hmem hs), if_pos h.mayBlock] at hstep
      cases hstep
      exact h.install (h.arms.setNl hfd hs) (.nl hfd (Function.update_self nl _ _))
    · rw [if_neg hs] at hstep
      cases hstep
      refine h.mono ?_
      rintro (ha | ⟨kv, hkv, hreq⟩)
      · exact Or.inl ha
      · rcases List.mem_append.mp hkv with hkv | hkv
        · exact Or.inr ⟨kv, hkv, hreq⟩
        · rw [List.mem_singleton] at hkv
          subst hkv
          exact absurd hreq hs
  · rintro (ha | ⟨kv, hkv, -⟩)
    · exact ha
    · cases hkv

/-! ### The second pass, the call not blocking -/

/-- The loop invariant when the call does not block: the sets hold the ready descriptors among
those processed for writing (`dw`), for reading (`dr`) and among the netlink sockets (`dn`). -/
structure Collecting (args : SelectArgs) (d : Data) (c₀ : Ctl) (dw dr : List (Fd × SockId))
    (dn : List (Fd × NlId)) (rs rn w : FdSet) (v : SelectLoop) : Prop where
  mayBlock : v.mayBlock = false
  doesBlock : v.doesBlock = false
  c : v.c = c₀
  newreadfds : v.newreadfds = rs ∪ rn
  newwritefds : v.newwritefds = w
  ctx : v.ctx = rs.card + rn.card + w.card
  sockets : ∀ fd, fd ∈ rs ↔ ∃ sock, (fd, sock) ∈ dr ∧ ReadReady args d fd sock
  netlinks : ∀ fd, fd ∈ rn ↔ ∃ nl, (fd, nl) ∈ dn ∧ NetlinkReady args d fd nl
  write : ∀ fd, fd ∈ w ↔ ∃ sock, (fd, sock) ∈ dw ∧ WriteReady args d fd sock

variable {dw dr : List (Fd × SockId)} {dn : List (Fd × NlId)} {rs rn w : FdSet} {v : SelectLoop}

section snoc

variable {α : Type} {P : Fd → α → Prop} {done : List (Fd × α)} {fd : Fd} {a : α}

theorem exists_snoc_of_pos (hP : P fd a) (x : Fd) :
    (∃ b, (x, b) ∈ done ++ [(fd, a)] ∧ P x b) ↔ x = fd ∨ ∃ b, (x, b) ∈ done ∧ P x b := by
  constructor
  · rintro ⟨b, hb, hx⟩
    rcases List.mem_append.mp hb with hb | hb
    · exact Or.inr ⟨b, hb, hx⟩
    · exact Or.inl (congrArg Prod.fst (List.mem_singleton.mp hb))
  · rintro (rfl | ⟨b, hb, hx⟩)
    · exact ⟨a, by simp, hP⟩
    · exact ⟨b, List.mem_append_left _ hb, hx⟩

theorem exists_snoc_of_neg (hP : ¬ P fd a) (x : Fd) :
    (∃ b, (x, b) ∈ done ++ [(fd, a)] ∧ P x b) ↔ ∃ b, (x, b) ∈ done ∧ P x b := by
  constructor
  · rintro ⟨b, hb, hx⟩
    rcases List.mem_append.mp hb with hb | hb
    · exact ⟨b, hb, hx⟩
    · rw [List.mem_singleton, Prod.mk.injEq] at hb
      obtain ⟨rfl, rfl⟩ := hb
      exact absurd hx hP
  · rintro ⟨b, hb, hx⟩
    exact ⟨b, List.mem_append_left _ hb, hx⟩

end snoc

theorem Collecting.writeStep (h : Collecting args d c₀ dw dr dn rs rn w v) (τ : Task) {fd : Fd}
    (sock : SockId) (hnew : fd ∉ dw.map Prod.fst) :
    ∃ w', Collecting args d c₀ (dw ++ [(fd, sock)]) dr dn rs rn w'
      (selectWrite args d τ fd sock v) := by
  have hfd : fd ∉ w := fun hw => by
    obtain ⟨sock', hmem, -⟩ := (h.write fd).mp hw
    exact hnew (List.mem_map.mpr ⟨_, hmem, rfl⟩)
  by_cases hs : WriteReady args d fd sock
  · have hv : selectWrite args d τ fd sock v = v.writeReady fd := by
      rw [selectWrite, if_pos hs.1, if_pos hs.2]
    rw [hv]
    refine ⟨insert fd w, { h with
      mayBlock := rfl
      newwritefds := by simp [SelectLoop.writeReady, h.newwritefds]
      ctx := by
        simp only [SelectLoop.writeReady, h.ctx, Finset.card_insert_of_notMem hfd]
        omega
      write := fun x => ?_ }⟩
    rw [exists_snoc_of_pos hs, Finset.mem_insert, h.write x]
  · have hv : selectWrite args d τ fd sock v = v := by
      unfold selectWrite
      by_cases hw : isSet args.writefds fd = true
      · have htx : ¬ d.txAvailable sock ≠ 0 := fun htx => hs ⟨hw, htx⟩
        simp [hw, htx, h.mayBlock]
      · simp [hw]
    rw [hv]
    refine ⟨w, { h with write := fun x => ?_ }⟩
    rw [exists_snoc_of_neg hs, h.write x]

theorem Collecting.readStep (h : Collecting args d c₀ dw dr dn rs rn w v) (τ : Task) {fd : Fd}
    (sock : SockId) (hnew : fd ∉ dr.map Prod.fst) :
    ∃ rs', Collecting args d c₀ dw (dr ++ [(fd, sock)]) dn rs' rn w
      (selectRead args d τ fd sock v) := by
  have hfd : fd ∉ rs := fun hr => by
    obtain ⟨sock', hmem, -⟩ := (h.sockets fd).mp hr
    exact hnew (List.mem_map.mpr ⟨_, hmem, rfl⟩)
  by_cases hs : ReadReady args d fd sock
  · have hv : selectRead args d τ fd sock v = v.readReady fd := by
      rw [selectRead, if_pos hs.1]
      rcases hs.2 with hrx | hf
      · rw [if_pos hrx]
      · rw [if_pos hf, ite_self]
    rw [hv]
    refine ⟨insert fd rs, { h with
      mayBlock := rfl
      newreadfds := by simp [SelectLoop.readReady, h.newreadfds]
      ctx := by
        simp only [SelectLoop.readReady, h.ctx, Finset.card_insert_of_notMem hfd]
        omega
      sockets := fun x => ?_ }⟩
    rw [exists_snoc_of_pos hs, Finset.mem_insert, h.sockets x]
  · have hv : selectRead args d τ fd sock v = v := by
      unfold selectRead
      by_cases hr : isSet args.readfds fd = true
      · have hn : ¬ (d.rxAvailable sock ≠ 0 ∨ (d.fds.fakeAcceptedSockets.find fd).isSome = true) :=
          fun hn => hs ⟨hr, hn⟩
        rw [not_or, not_not] at hn
        simp [hr, hn.1, hn.2, h.mayBlock]
      · simp [hr]
    rw [hv]
    refine ⟨rs, { h with sockets := fun x => ?_ }⟩
    rw [exists_snoc_of_neg hs, h.sockets x]

theorem Collecting.netlinkStep (h : Collecting args d c₀ dw dr dn rs rn w v) {fd : Fd} {nl : NlId}
    {v' : SelectLoop} (hnew : fd ∉ dn.map Prod.fst)
    (hstep : selectNetlink args d τ v (fd, nl) = some v') :
    ∃ rn', Collecting args d c₀ dw dr (dn ++ [(fd, nl)]) rs rn' w v' := by
  have hfd : fd ∉ rn := fun hr => by
    obtain ⟨nl', hmem, -⟩ := (h.netlinks fd).mp hr
    exact hnew (List.mem_map.mpr ⟨_, hmem, rfl⟩)
  unfold selectNetlink at hstep
  by_cases hs : NetlinkReady args d fd nl
  · rw [if_pos hs.1, if_pos hs.2] at hstep
    cases hstep
    refine ⟨insert fd rn, { h with
      mayBlock := rfl
      newreadfds := by simp [SelectLoop.readReady, h.newreadfds]
      ctx := by
        simp only [SelectLoop.readReady, h.ctx, Finset.card_insert_of_notMem hfd]
        omega
      netlinks := fun x => ?_ }⟩
    rw [exists_snoc_of_pos hs, Finset.mem_insert, h.netlinks x]
  · have hv : v' = v := by
      by_cases hr : isSet args.readfds fd = true
      · have hn : ¬ (d.nls nl).replyQueue ≠ [] := fun hn => hs ⟨hr, hn⟩
        simpa [hr, hn, h.mayBlock, eq_comm] using hstep
      · simpa [hr, eq_comm] using hstep
    subst hv
    refine ⟨rn, { h with netlinks := fun x => ?_ }⟩
    rw [exists_snoc_of_neg hs, h.netlinks x]

/-- The key of an entry is not among the keys of the entries before it. -/
theorem notMem_keys_done {α : Type} {m : StdMap Fd α} {done rest : List (Fd × α)} {fd : Fd} {a : α}
    (h : m.entries = done ++ (fd, a) :: rest) : fd ∉ done.map Prod.fst := by
  have hnd := m.nodup_keys
  rw [h, List.map_append, List.map_cons, List.nodup_append] at hnd
  exact fun hmem => hnd.2.2 fd hmem fd List.mem_cons_self rfl

theorem Collecting.pass {v' : SelectLoop}
    (h : Collecting args d c₀ [] [] [] ∅ ∅ ∅ v) (hr : selectPass args d τ v = some v') :
    ∃ rs rn w, Collecting args d c₀ d.fds.sockets.entries d.fds.sockets.entries
      d.fds.netlinks.entries rs rn w v' := by
  obtain ⟨v₁, hs, hn⟩ := Option.bind_eq_some_iff.mp hr
  have h₁ : ∃ rs w, Collecting args d c₀ d.fds.sockets.entries d.fds.sockets.entries [] rs ∅ w v₁ := by
    refine Runs.run_loop (I := fun done v => ∃ rs w, Collecting args d c₀ done done [] rs ∅ w v)
      ?_ ⟨∅, ∅, h⟩ hs
    rintro done ⟨fd, sock⟩ rest v v' hls ⟨rs, w, h⟩ hstep
    unfold selectSocket at hstep
    split_ifs at hstep with hx
    cases hstep
    obtain ⟨w', hw⟩ := h.writeStep τ sock (notMem_keys_done hls)
    obtain ⟨rs', hr⟩ := hw.readStep τ sock (notMem_keys_done hls)
    exact ⟨rs', w', hr⟩
  obtain ⟨rs, w, h₁⟩ := h₁
  refine Runs.run_loop (I := fun done v => ∃ rs rn w, Collecting args d c₀
    d.fds.sockets.entries d.fds.sockets.entries done rs rn w v) ?_ ⟨rs, ∅, w, h₁⟩ hn
  rintro done ⟨fd, nl⟩ rest v v' hls ⟨rs, rn, w, h⟩ hstep
  obtain ⟨rn', hn⟩ := h.netlinkStep (notMem_keys_done hls) hstep
  exact ⟨rs, rn', w, hn⟩

/-! ### The handler -/

@[simp] theorem Data.selMem_setSel (act : ℕ) (m : FdSets) (d : Data) :
    (d.setSel act m).selMem act = m := by
  simp [Data.setSel]

theorem Data.setSel_again (act : ℕ) (m m' : FdSets) (d : Data) :
    (d.setSel act m).setSel act m' = d.setSel act m' := by
  simp [Data.setSel]

variable {s : St}

/-- The call is answered with the number of ready descriptors. -/
theorem wp_selectAnswer {v : SelectLoop} (hb : v.doesBlock = false) (hc : v.c = s.c)
    (hready : ReadySets args s.d rs rn w)
    (hreq : rs = ∅ → rn = ∅ → w = ∅ → args.mayBlock = true → ¬ Requested args s.d.fds)
    (hr : v.newreadfds = rs ∪ rn) (hw : v.newwritefds = w)
    (hctx : v.ctx = rs.card + rn.card + w.card) :
    wp (selectAnswer args s.c.task v) (Handled (.select args) s)
      ⟨v.c, s.d.setSel s.c.task.act args.mem⟩ := by
  have finish : ∀ d', Quiet (s.d.setSel s.c.task.act (args.mem.store (rs ∪ rn) w ∅)) d' →
      wp (fake (rs.card + rn.card + w.card : ℕ) .success) (Handled (.select args) s) ⟨s.c, d'⟩ :=
    fun d' hd' => wp_fake (fun _ => .error) fun c' hc' =>
      .selectNow rfl hready hreq hd' hc'
  unfold selectAnswer
  simp only [hb, Bool.false_eq_true, if_false, wp_bind, wp_get]
  refine wp_storeFdSets ?_
  rw [Data.selMem_setSel, Data.setSel_again, hr, hw, hctx, hc, wp_ite]
  refine ⟨fun _ => ?_, fun _ => finish _ (Quiet.refl _)⟩
  rw [wp_bind]
  exact wp_memcpyToTracee fun st => finish _ ((Quiet.refl _).stores st)

/-- The call waits. -/
theorem wp_selectBlock {c : Ctl} (hm : selectMayBlock args s.d = some true)
    (harms : SelectArms args s.d s.c.task s.c c) (hw : SelectWaits s.c.task s.d.fds c) :
    wp (selectBlock args s.c.task) (Handled (.select args) s)
      ⟨c, s.d.setSel s.c.task.act args.mem⟩ := by
  unfold selectBlock
  cases ht : args.timeout with
  | none => exact (wp_pure _ _ _).mpr (.selectWait rfl hm harms hw (.none ht))
  | some t =>
      simp only [wp_bind, wp_schedule, wp_pure]
      exact fun h => .selectWait rfl hm harms hw (.timer ht h)

theorem NotReady.readySets (h : NotReady args d) : ReadySets args d ∅ ∅ ∅ where
  sockets fd := by
    refine ⟨fun hm => by simp at hm, ?_⟩
    rintro ⟨sock, hfd, hs, hrd⟩
    obtain ⟨hrx, hf⟩ := (socketHasData_eq_false
      (h.sockets (fd, sock) (StdMap.mem_entries.mpr hfd))).2 hs
    simp [hrx, hf] at hrd
  netlinks fd := by
    refine ⟨fun hm => by simp at hm, ?_⟩
    rintro ⟨nl, hfd, hs, hq⟩
    exact absurd (h.netlinks (fd, nl) (StdMap.mem_entries.mpr hfd) hs) hq
  write fd := by
    refine ⟨fun hm => by simp at hm, ?_⟩
    rintro ⟨sock, hfd, hs, htx⟩
    exact absurd ((socketHasData_eq_false
      (h.sockets (fd, sock) (StdMap.mem_entries.mpr hfd))).1 hs) htx

theorem asked_of_requested (h : Requested args d.fds) :
    AskedSockets args d.fds.sockets.entries ∨ AskedNetlinks args d.fds.netlinks.entries := by
  rcases h with ⟨fd, hfd, hreq⟩ | ⟨fd, hfd, hreq⟩
  · obtain ⟨sock, hsock⟩ := Option.isSome_iff_exists.mp (StdMap.mem_keys.mp hfd)
    exact Or.inl ⟨(fd, sock), StdMap.mem_entries.mpr hsock, hreq⟩
  · obtain ⟨nl, hnl⟩ := Option.isSome_iff_exists.mp (StdMap.mem_keys.mp hfd)
    exact Or.inr ⟨(fd, nl), StdMap.mem_entries.mpr hnl, hreq⟩

/-- In the first pass nothing was ready. -/
theorem selectMayBlock_eq_true (h : selectMayBlock args d = some true) :
    args.mayBlock = true ∧ NotReady args d := by
  unfold selectMayBlock at h
  by_cases hm : args.mayBlock = true
  · rw [if_pos hm, Option.map_eq_some_iff] at h
    obtain ⟨b, hb, hnot⟩ := h
    have hb' : b = false := by simpa using hnot
    subst hb'
    exact ⟨hm, NotReady.of_hasData hb⟩
  · rw [if_neg hm] at h
    cases h

/-- If the call does not block although it may, something is ready. -/
theorem selectMayBlock_eq_false (h : selectMayBlock args d = some false)
    (hm : args.mayBlock = true) : selectHasData args d d.fds.sockets.entries = some true := by
  unfold selectMayBlock at h
  rw [if_pos hm, Option.map_eq_some_iff] at h
  obtain ⟨b, hb, hnot⟩ := h
  have hb' : b = true := by simpa using hnot
  rwa [hb'] at hb

theorem netlinksHaveData_eq_true :
    ∀ {kvs : List (Fd × NlId)}, netlinksHaveData args d kvs = some true →
      ∃ kv ∈ kvs, NetlinkReady args d kv.1 kv.2
  | [], h => by cases h
  | (fd, nl) :: kvs, h => by
      unfold netlinksHaveData at h
      split_ifs at h with h₁ h₂
      · rw [Bool.and_eq_true, decide_eq_true_eq] at h₁
        exact ⟨(fd, nl), List.mem_cons_self, h₁⟩
      · obtain ⟨kv, hkv, hr⟩ := netlinksHaveData_eq_true h
        exact ⟨kv, List.mem_cons_of_mem _ hkv, hr⟩

theorem selectHasData_eq_true :
    ∀ {kvs : List (Fd × SockId)}, selectHasData args d kvs = some true →
      (∃ kv ∈ kvs, ReadReady args d kv.1 kv.2 ∨ WriteReady args d kv.1 kv.2) ∨
        ∃ kv ∈ d.fds.netlinks.entries, NetlinkReady args d kv.1 kv.2
  | [], h => Or.inr (netlinksHaveData_eq_true h)
  | (fd, sock) :: kvs, h => by
      unfold selectHasData at h
      split_ifs at h with h₁ h₂
      · refine Or.inl ⟨(fd, sock), List.mem_cons_self, ?_⟩
        simp only [socketHasData, Bool.or_eq_true, Bool.and_eq_true, decide_eq_true_eq] at h₁
        rcases h₁ with (h₁ | h₁) | h₁
        · exact Or.inr h₁
        · exact Or.inl ⟨h₁.1, Or.inl h₁.2⟩
        · exact Or.inl ⟨h₁.1, Or.inr h₁.2⟩
      · rcases selectHasData_eq_true h with ⟨kv, hkv, hr⟩ | hn
        · exact Or.inl ⟨kv, List.mem_cons_of_mem _ hkv, hr⟩
        · exact Or.inr hn

theorem handleSelect_spec (args : SelectArgs) :
    wp (handleSelect args) (Handled (.select args) s) s := by
  unfold handleSelect
  simp only [wp_bind, wp_get, wp_modifyData]
  cases hm : selectMayBlock args s.d with
  | none => exact (wp_pure _ _ _).mpr .error
  | some mayBlock =>
      simp only
      cases hp : selectPass args s.d s.c.task ⟨mayBlock, false, ∅, ∅, 0, s.c⟩ with
      | none => exact (wp_pure _ _ _).mpr .error
      | some v =>
          simp only [wp_bind, wp_modifyCtl]
          cases mayBlock with
          | false =>
              have hstart : Collecting args s.d s.c [] [] [] ∅ ∅ ∅ ⟨false, false, ∅, ∅, 0, s.c⟩ :=
                ⟨rfl, rfl, rfl, by simp, rfl, by simp, by simp, by simp, by simp⟩
              obtain ⟨rs, rn, w, h⟩ := hstart.pass hp
              rw [h.mayBlock]
              refine wp_selectAnswer h.doesBlock h.c
                ⟨by simpa only [StdMap.mem_entries] using h.sockets,
                  by simpa only [StdMap.mem_entries] using h.netlinks,
                  by simpa only [StdMap.mem_entries] using h.write⟩ ?_ h.newreadfds h.newwritefds
                h.ctx
              intro hrs hrn hw hmay
              rcases selectHasData_eq_true (selectMayBlock_eq_false hm hmay) with
                ⟨⟨fd, sock⟩, hmem, hr | hr⟩ | ⟨⟨fd, nl⟩, hmem, hr⟩
              · exact absurd ((h.sockets fd).mpr ⟨sock, hmem, hr⟩) (by simp [hrs])
              · exact absurd ((h.write fd).mpr ⟨sock, hmem, hr⟩) (by simp [hw])
              · exact absurd ((h.netlinks fd).mpr ⟨nl, hmem, hr⟩) (by simp [hrn])
          | true =>
              have hn := (selectMayBlock_eq_true hm).2
              obtain ⟨v₁, hs, hnl⟩ := Option.bind_eq_some_iff.mp hp
              have hstart : Blocking args s.d s.c.task s.c False ⟨true, false, ∅, ∅, 0, s.c⟩ :=
                ⟨rfl, rfl, rfl, rfl, SelectArms.refl _ _ _ _, fun h => absurd h Bool.false_ne_true,
                  fun _ => ⟨rfl, not_false⟩⟩
              have h := (hstart.sockets hn hs).netlinks hn hnl
              rw [h.mayBlock, Bool.true_and]
              by_cases hb : v.doesBlock = true
              · rw [if_pos hb]
                exact wp_selectBlock hm h.arms (h.waits hb)
              · have hb := eq_false_of_ne_true hb
                obtain ⟨hc, hidle⟩ := h.idle hb
                rw [hb]
                exact wp_selectAnswer hb hc hn.readySets
                  (fun _ _ _ _ hreq => hidle (asked_of_requested hreq))
                  (by simp [h.newreadfds]) h.newwritefds (by simp [h.ctx])

end Grail
