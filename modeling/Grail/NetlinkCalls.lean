import Grail.Iovecs

/-! # Netlink calls as the tracee makes them

`NlCall` is a call of a program that uses `getpid` and netlink sockets, with the bytes that it
sends.  `c.Reads call` says that the emulator takes it for `call`: the messages of a buffer are
decoded from a copy, behind which lies memory of the host.

If the route messages of the buffers are contained, two readings of one call have the same effect
(`Decodes.processNlmsgs_eq`). -/

namespace Grail

open Programs Bytes Loops Libnl

inductive NlCall where
  | getpid
  | socket (type protocol : ℤ)
  | bind (sockfd : Fd) (addr : Sockaddr)
  | getsockname (sockfd : Fd) (out : SockaddrOut)
  | sendto (sockfd : Fd) (buf : List UInt8) (flags : ℤ) (dest_addr : Option Sockaddr)
  | recvmsg (sockfd : Fd) (iov_base : Ptr) (iov_len : ℕ)
  | sendmsg (sockfd : Fd) (msg_iov : List (List UInt8))

/-- The copy of a buffer is decoded as `iov`. -/
structure Decodes (b : Buffer) (iov : Iovec) : Prop where
  iov_len : iov.iov_len = b.bytes.length
  left : iov.left = b.stop.len
  msgs : List.Forall₂ (fun p msg => ∃ n, loadNlmsg n (shift b.memory p) = some msg)
    b.messages iov.msgs

/-- A buffer of the tracee is decoded as `iov`, with some memory of the host behind the copy. -/
def ReadsAs (bytes : List UInt8) (iov : Iovec) : Prop := ∃ beyond, Decodes ⟨bytes, beyond⟩ iov

/-- The emulator takes a call of the tracee for `call`. -/
inductive NlCall.Reads : NlCall → Syscall → Prop
  | getpid : Reads .getpid .getpid
  | socket {type protocol : ℤ} : Reads (.socket type protocol) (.socket AF_NETLINK type protocol)
  | bind {sockfd : Fd} {addr : Sockaddr} : Reads (.bind sockfd addr) (.bind sockfd addr)
  | getsockname {sockfd : Fd} {out : SockaddrOut} :
      Reads (.getsockname sockfd out) (.getsockname sockfd out)
  | sendto {sockfd : Fd} {buf : List UInt8} {iov : Iovec} {flags : ℤ}
      {dest_addr : Option Sockaddr} : ReadsAs buf iov →
      Reads (.sendto sockfd buf flags dest_addr) (.sendto sockfd iov flags dest_addr)
  | recvmsg {sockfd : Fd} {iov_base : Ptr} {iov_len : ℕ} :
      Reads (.recvmsg sockfd iov_base iov_len) (.recvmsg sockfd iov_base iov_len)
  | sendmsg {sockfd : Fd} {bufs : List (List UInt8)} {msg_iov : List Iovec} :
      List.Forall₂ ReadsAs bufs msg_iov → Reads (.sendmsg sockfd bufs) (.sendmsg sockfd msg_iov)

/-- No message of the buffer makes `ProcessNlmsghdr` read behind it. -/
def PayloadContained (bytes : List UInt8) : Prop :=
  ∀ beyond, ∀ p ∈ (Buffer.mk bytes beyond).messages,
    RouteContained (shift (buffer bytes beyond) p)

/-! ### Messages -/

theorem loadAttrs_mono {iifOk : Bool} {hdr : Memory} {n n' : ℕ} {c : AttrCursor}
    {attrs : List Rta} (h : loadAttrs iifOk hdr n c = some attrs) (hn : n ≤ n') :
    loadAttrs iifOk hdr n' c = some attrs := by
  induction n generalizing n' c attrs with
  | zero => cases h
  | succ n ih =>
      obtain ⟨n', rfl⟩ : ∃ k, n' = k + 1 := ⟨n' - 1, by omega⟩
      rw [loadAttrs] at h ⊢
      split_ifs at h ⊢ with hok hknown
      · obtain ⟨rest, hrest, hattrs⟩ := Option.map_eq_some_iff.mp h
        rw [ih hrest (by omega), Option.map_some, hattrs]
      · exact h
      · exact h

theorem loadRtMsg_mono {iifOk : Bool} {hdr : Memory} {n n' : ℕ} {body : Option RtMsg}
    (h : loadRtMsg iifOk n hdr = some body) (hn : n ≤ n') :
    loadRtMsg iifOk n' hdr = some body := by
  unfold loadRtMsg at h ⊢
  split_ifs at h ⊢
  · exact h
  · exact h
  · obtain ⟨attrs, hattrs, hbody⟩ := Option.map_eq_some_iff.mp h
    rw [loadAttrs_mono hattrs hn, Option.map_some, hbody]

theorem loadNlmsg_mono {hdr : Memory} {n n' : ℕ} {msg : Nlmsg}
    (h : loadNlmsg n hdr = some msg) (hn : n ≤ n') : loadNlmsg n' hdr = some msg := by
  unfold loadNlmsg at h ⊢
  simp only at h ⊢
  split_ifs at h ⊢
  · exact h
  · exact h
  · obtain ⟨body, hbody, hmsg⟩ := Option.map_eq_some_iff.mp h
    rw [loadRtMsg_mono hbody hn, Option.map_some, hmsg]
  · obtain ⟨body, hbody, hmsg⟩ := Option.map_eq_some_iff.mp h
    rw [loadRtMsg_mono hbody hn, Option.map_some, hmsg]
  · exact h

/-- Two readings of a message that agree on its bytes have the same effect. -/
theorem processNlmsghdr_congr {hdr hdr' : Memory} {n n' : ℕ} {msg msg' : Nlmsg}
    (h : loadNlmsg n hdr = some msg) (h' : loadNlmsg n' hdr' = some msg')
    (h16 : 16 ≤ nlmsgLen hdr) (ha : Agree hdr hdr' 0 (nlmsgLen hdr)) (hc : RouteContained hdr)
    (nl : NlId) : processNlmsghdr nl msg = processNlmsghdr nl msg' := by
  have hmsg := processNlmsghdrAt_eq (loadNlmsg_mono h (le_max_left n n')) nl
  have hmsg' := processNlmsghdrAt_eq (loadNlmsg_mono h' (le_max_right n n')) nl
  rw [← hmsg, ← hmsg']
  exact processNlmsghdrAt_congr h16 ha hc _ nl

/-! ### Buffers -/

section Copies

variable {bytes : List UInt8} {m m' : Memory} {t : Cursor}

/-- What the loop reads of a message that it accepts lies in the copy. -/
theorem accepted_congr (hv : Visits (okAt (buffer bytes m)) (nextAt (buffer bytes m))
      ⟨0, bytes.length⟩ t) (hok : okAt (buffer bytes m) t = true) (m' : Memory) :
    okAt (buffer bytes m') t = true ∧ nextAt (buffer bytes m') t = nextAt (buffer bytes m) t := by
  have hin : t.hdr + nlmsgLen (shift (buffer bytes m) t.hdr) ≤ 0 + bytes.length :=
    walk_inside hv hok
  have h16 := (okAt_iff.mp hok).1
  have hlen : nlmsgLen (shift (buffer bytes m') t.hdr) = nlmsgLen (shift (buffer bytes m) t.hdr) := by
    unfold nlmsgLen at hin h16 ⊢
    rw [word_shift] at hin h16 ⊢
    rw [word_shift]
    exact word_buffer (by omega)
  constructor
  · rw [okAt_iff, hlen]
    exact okAt_iff.mp hok
  · unfold nextAt
    rw [hlen]

theorem visits_congr (h : Visits (okAt (buffer bytes m)) (nextAt (buffer bytes m))
      ⟨0, bytes.length⟩ t) :
    Visits (okAt (buffer bytes m')) (nextAt (buffer bytes m')) ⟨0, bytes.length⟩ t := by
  induction h with
  | start => exact Visits.start
  | turn hv hok ih =>
      obtain ⟨hok', hnext⟩ := accepted_congr hv hok m'
      rw [← hnext]
      exact ih.turn hok'

/-- The variables after the loop do not depend on what lies beyond the copy. -/
theorem Buffer.stop_congr : (Buffer.mk bytes m).stop = (Buffer.mk bytes m').stop := by
  obtain ⟨k, hk, ht⟩ := walk_turns (buffer bytes m) ⟨0, bytes.length⟩
  have hiter : ∀ i ≤ k, (nextAt (buffer bytes m'))^[i] ⟨0, bytes.length⟩ =
      (nextAt (buffer bytes m))^[i] ⟨0, bytes.length⟩ := by
    intro i hi
    induction i with
    | zero => rfl
    | succ i ih =>
        rw [Function.iterate_succ_apply', Function.iterate_succ_apply', ih (by omega)]
        exact (accepted_congr (ht.visits (by omega)) (ht.goes i hi) m').2
  have ht' : Turns (okAt (buffer bytes m')) (nextAt (buffer bytes m')) ⟨0, bytes.length⟩ k := by
    constructor
    · intro i hi
      rw [hiter i hi.le]
      exact (accepted_congr (ht.visits hi.le) (ht.goes i hi) m').1
    · rw [hiter k le_rfl]
      by_contra hgo
      have hv := ht.visits le_rfl
      have hok := (accepted_congr (visits_congr hv) (eq_true_of_ne_false hgo) m).1
      rw [ht.stops] at hok
      cases hok
  calc (Buffer.mk bytes m).stop = (nextAt (buffer bytes m))^[k] ⟨0, bytes.length⟩ :=
        final_of_turns ht hk
    _ = (nextAt (buffer bytes m'))^[k] ⟨0, bytes.length⟩ := (hiter k le_rfl).symm
    _ = (Buffer.mk bytes m').stop := (final_of_turns ht' hk).symm

/-- An accepted message is complete. -/
theorem Buffer.nlmsgLen_of_mem {b : Buffer} {p : ℕ} (hp : p ∈ b.messages) :
    16 ≤ nlmsgLen (shift b.memory p) := by
  obtain ⟨t, hv, hok, rfl⟩ := mem_accepted hp
  exact (okAt_iff.mp hok).1

theorem processNlmsgs_congr {ps : List ℕ} {msgs msgs' : List Nlmsg} (nl : NlId)
    (h : List.Forall₂ (fun p msg => ∃ n, loadNlmsg n (shift (buffer bytes m) p) = some msg) ps msgs)
    (h' : List.Forall₂ (fun p msg => ∃ n, loadNlmsg n (shift (buffer bytes m') p) = some msg)
      ps msgs')
    (hps : ∀ p ∈ ps, p ∈ (Buffer.mk bytes m).messages) (hc : PayloadContained bytes) :
    processNlmsgs nl msgs = processNlmsgs nl msgs' := by
  induction h generalizing msgs' with
  | nil =>
      cases h'
      rfl
  | @cons p msg ps msgs hmsg _ ih =>
      cases h' with
      | @cons _ msg' _ msgs' hmsg' hrest' =>
          obtain ⟨n, hmsg⟩ := hmsg
          obtain ⟨n', hmsg'⟩ := hmsg'
          have hp := hps p List.mem_cons_self
          have hin := Buffer.messages_inside hp
          have ha : Agree (shift (buffer bytes m) p) (shift (buffer bytes m') p) 0
              (nlmsgLen (shift (buffer bytes m) p)) := by
            intro i _ hi
            have hi : p + i < bytes.length := by
              have hin : p + nlmsgLen (shift (buffer bytes m) p) ≤ bytes.length := hin
              omega
            show buffer bytes m (p + i) = buffer bytes m' (p + i)
            rw [buffer_of_lt hi, buffer_of_lt hi]
          have hhead := processNlmsghdr_congr hmsg hmsg' (Buffer.nlmsgLen_of_mem hp) ha
            (hc m p hp) nl
          have hrest := ih hrest' fun q hq => hps q (List.mem_cons_of_mem p hq)
          rw [processNlmsgs, processNlmsgs, hhead, hrest]

end Copies

/-- Two readings of a buffer have the same effect. -/
theorem readsAs_congr {bytes : List UInt8} {iov iov' : Iovec} (h : ReadsAs bytes iov)
    (h' : ReadsAs bytes iov') (hc : PayloadContained bytes) :
    iov.iov_len = iov'.iov_len ∧ iov.left = iov'.left ∧
      ∀ nl, processNlmsgs nl iov.msgs = processNlmsgs nl iov'.msgs := by
  obtain ⟨m, hd⟩ := h
  obtain ⟨m', hd'⟩ := h'
  have hmsgs : (Buffer.mk bytes m).messages = (Buffer.mk bytes m').messages :=
    Buffer.messages_congr rfl
  refine ⟨hd.iov_len.trans hd'.iov_len.symm, ?_, fun nl => ?_⟩
  · rw [hd.left, hd'.left, Buffer.stop_congr]
  · have hm' := hd'.msgs
    rw [← hmsgs] at hm'
    exact processNlmsgs_congr nl hd.msgs hm' (fun _ hp => hp) hc

theorem processIovecs_congr {bufs : List (List UInt8)} {msg_iov msg_iov' : List Iovec}
    (h : List.Forall₂ ReadsAs bufs msg_iov) (h' : List.Forall₂ ReadsAs bufs msg_iov')
    (hc : ∀ buf ∈ bufs, PayloadContained buf) :
    (msg_iov.map Iovec.iov_len).sum = (msg_iov'.map Iovec.iov_len).sum ∧
      ∀ nl, processIovecs nl msg_iov = processIovecs nl msg_iov' := by
  induction h generalizing msg_iov' with
  | nil =>
      cases h'
      exact ⟨rfl, fun _ => rfl⟩
  | @cons buf iov bufs iovs hiov _ ih =>
      cases h' with
      | @cons _ iov' _ iovs' hiov' hrest' =>
          obtain ⟨hlen, -, hmsgs⟩ := readsAs_congr hiov hiov' (hc buf List.mem_cons_self)
          obtain ⟨hsum, hrest⟩ := ih hrest' fun b hb => hc b (List.mem_cons_of_mem buf hb)
          refine ⟨?_, fun nl => ?_⟩
          · rw [List.map_cons, List.map_cons, List.sum_cons, List.sum_cons, hlen, hsum]
          · rw [processIovecs, processIovecs, hmsgs nl, hrest nl]

end Grail
