import Grail.Replies
import Grail.Frames

/-! # The dump of the links

`RTM_GETLINK` is answered with one `RTM_NEWLINK` for each device and a final `NLMSG_DONE`.  The
names count the devices of each class (`linkNames`); they are distinct, since a later name has a
larger number or another prefix (`linkNames_nodup`), and they fit the buffer `ifname[16]`.

A reply decodes to the index and the name it was made of (`newLink_decodes`).  Requests append to
the queue of their socket and `recvmsg` takes from its head, so in every sequence of both
(`Exchange`) the groups of replies are received whole and in order (`Exchange.received`). -/

namespace Grail

open Bytes Libnl Programs

/-! ### Decimal numbers -/

theorem toDigits_inj {m n : ℕ} (h : Nat.toDigits 10 m = Nat.toDigits 10 n) : m = n := by
  have h := congrArg (Nat.ofDigitChars 10 · 0) h
  simpa only [Nat.ofDigitChars_ten_toDigits] using h

theorem isDigit_of_mem_toDigits {n : ℕ} {ch : Char} (h : ch ∈ Nat.toDigits 10 n) :
    ch.isDigit = true := Nat.isDigit_of_mem_toDigits (by decide) (by decide) h

theorem length_toDigits_le {n : ℕ} (h : n ≤ 2 ^ 31) : (Nat.toDigits 10 n).length ≤ 10 :=
  (Nat.length_toDigits_le_iff (by decide) (by decide)).mpr (by omega)

theorem length_decimal (n : ℕ) : (decimal n).length ≤ 11 := by
  unfold decimal
  split_ifs with h
  · have hle := length_toDigits_le h.le
    omega
  · have hle := @length_toDigits_le (2 ^ 32 - n % 2 ^ 32) (by omega)
    rw [List.length_cons]
    omega

/-- A number of 32 bits can be read back. -/
theorem decimal_inj {m n : ℕ} (hm : m < 2 ^ 32) (hn : n < 2 ^ 32) (h : decimal m = decimal n) :
    m = n := by
  have hsign : ∀ k : ℕ, '-' ∉ Nat.toDigits 10 k := by
    intro k hk
    exact absurd (isDigit_of_mem_toDigits hk) (by decide)
  unfold decimal at h
  rw [Nat.mod_eq_of_lt hm, Nat.mod_eq_of_lt hn] at h
  split_ifs at h with h₁ h₂ h₂
  · exact toDigits_inj h
  · exact absurd (h ▸ List.mem_cons_self) (hsign m)
  · exact absurd (h ▸ List.mem_cons_self) (hsign n)
  · have he := toDigits_inj (List.cons.inj h).2
    omega

/-- The characters of a number and of a name are ASCII and not zero. -/
def IsAscii (ch : Char) : Prop := 0 < ch.toNat ∧ ch.toNat < 128

theorem isAscii_of_isDigit {ch : Char} (h : ch.isDigit = true) : IsAscii ch := by
  have hd := Char.isDigit_iff_toNat.mp h
  have h0 : '0'.toNat = 48 := rfl
  have h9 : '9'.toNat = 57 := rfl
  exact ⟨by omega, by omega⟩

theorem isAscii_decimal {n : ℕ} {ch : Char} (h : ch ∈ decimal n) : IsAscii ch := by
  unfold decimal at h
  split_ifs at h
  · exact isAscii_of_isDigit (isDigit_of_mem_toDigits h)
  · rcases List.mem_cons.mp h with rfl | h
    · exact ⟨by decide, by decide⟩
    · exact isAscii_of_isDigit (isDigit_of_mem_toDigits h)

/-! ### Names -/

/-- The first part of the names of a class. -/
def DeviceType.ifPrefix : DeviceType → List Char
  | .loopback => ['l', 'o']
  | .wifi => ['w', 'l', 'a', 'n']
  | .pointToPoint => ['e', 't', 'h']
  | .other => []

/-- The counter of a class. -/
def IfCounters.count (k : IfCounters) : DeviceType → ℕ
  | .loopback => k.lo
  | .wifi => k.wlan
  | .pointToPoint => k.eth
  | .other => 0

/-- The counters after a device of the class. -/
def IfCounters.tick (k : IfCounters) : DeviceType → IfCounters
  | .loopback => { k with lo := k.lo + 1 }
  | .wifi => { k with wlan := k.wlan + 1 }
  | .pointToPoint => { k with eth := k.eth + 1 }
  | .other => k

/-- The names of the devices, in order. -/
def linkNames : IfCounters → List NetDevice → List (List Char)
  | _, [] => []
  | k, dev :: devices =>
      (dev.type.ifPrefix ++ decimal (k.count dev.type)) :: linkNames (k.tick dev.type) devices

/-- The replies with the names and with indices from `i` on. -/
def newLinks (i : ℕ) (names : List (List Char)) : List Reply :=
  (names.zipIdx i).map fun p => .newLink p.2 p.1

/-- The devices are of the classes that the emulator knows. -/
def Supported (devices : List NetDevice) : Prop := ∀ dev ∈ devices, dev.type ≠ .other

theorem IfCounters.next_eq {k : IfCounters} {type : DeviceType} (h : type ≠ .other) :
    k.next type = .ok (type.ifPrefix ++ decimal (k.count type), k.tick type) := by
  cases type with
  | other => exact absurd rfl h
  | _ => rfl

theorem linkReplies_eq {i : ℕ} {k : IfCounters} {devices : List NetDevice} (h : Supported devices) :
    linkReplies i k devices = .ok (newLinks i (linkNames k devices)) := by
  induction devices generalizing i k with
  | nil => rfl
  | cons dev devices ih =>
      have hrest := @ih (i + 1) (k.tick dev.type) fun d hd => h d (List.mem_cons_of_mem dev hd)
      rw [linkReplies, IfCounters.next_eq (h dev List.mem_cons_self)]
      show (linkReplies (i + 1) (k.tick dev.type) devices >>= fun replies => _) = _
      rw [hrest]
      rfl

theorem length_linkNames (k : IfCounters) (devices : List NetDevice) :
    (linkNames k devices).length = devices.length := by
  induction devices generalizing k with
  | nil => rfl
  | cons dev devices ih => rw [linkNames, List.length_cons, ih, List.length_cons]

theorem IfCounters.count_le_tick (k : IfCounters) (t t' : DeviceType) :
    k.count t ≤ (k.tick t').count t := by
  cases t' <;> cases t <;> simp [tick, count]

theorem IfCounters.tick_le (k : IfCounters) (t t' : DeviceType) :
    (k.tick t').count t ≤ k.count t + 1 := by
  cases t' <;> cases t <;> simp [tick, count]

theorem IfCounters.count_lt_tick (k : IfCounters) {t : DeviceType} (h : t ≠ .other) :
    k.count t < (k.tick t).count t := by
  cases t with
  | other => exact absurd rfl h
  | _ => exact Nat.lt_succ_self _

/-- A name is the prefix of a class with a number that the counter of the class takes. -/
theorem mem_linkNames {k : IfCounters} {devices : List NetDevice} {ifname : List Char}
    (hs : Supported devices) (h : ifname ∈ linkNames k devices) :
    ∃ t c, t ≠ .other ∧ k.count t ≤ c ∧ c < k.count t + devices.length ∧
      ifname = t.ifPrefix ++ decimal c := by
  induction devices generalizing k with
  | nil => cases h
  | cons dev devices ih =>
      rw [linkNames, List.mem_cons] at h
      rcases h with rfl | h
      · refine ⟨dev.type, k.count dev.type, hs dev List.mem_cons_self, le_rfl, ?_, rfl⟩
        rw [List.length_cons]
        omega
      · obtain ⟨t, c, ht, hle, hlt, hname⟩ := ih (fun d hd => hs d (List.mem_cons_of_mem dev hd)) h
        have h₁ := k.count_le_tick t dev.type
        have h₂ := k.tick_le t dev.type
        rw [List.length_cons]
        exact ⟨t, c, ht, by omega, by omega, hname⟩

theorem ifPrefix_append {t t' : DeviceType} {x x' : List Char} (ht : t ≠ .other) (ht' : t' ≠ .other)
    (h : t.ifPrefix ++ x = t'.ifPrefix ++ x') : t = t' ∧ x = x' := by
  cases t <;> cases t' <;> simp_all [DeviceType.ifPrefix]

/-- The names are distinct, since the counters only grow. -/
theorem linkNames_nodup {k : IfCounters} {devices : List NetDevice} (hs : Supported devices)
    (hlt : ∀ t, k.count t + devices.length < 2 ^ 32) : (linkNames k devices).Nodup := by
  induction devices generalizing k with
  | nil => exact List.nodup_nil
  | cons dev devices ih =>
      have hs' : Supported devices := fun d hd => hs d (List.mem_cons_of_mem dev hd)
      have hdev := hs dev List.mem_cons_self
      simp only [List.length_cons] at hlt
      have hlt' : ∀ t, (k.tick dev.type).count t + devices.length < 2 ^ 32 := by
        intro t
        have h₁ := hlt t
        have h₂ := k.tick_le t dev.type
        omega
      rw [linkNames, List.nodup_cons]
      refine ⟨fun hmem => ?_, ih hs' hlt'⟩
      obtain ⟨t, c, ht, hle, hc, hname⟩ := mem_linkNames hs' hmem
      obtain ⟨rfl, hdec⟩ := ifPrefix_append hdev ht hname
      have h₁ := k.count_lt_tick hdev
      have h₂ := hlt' dev.type
      have h₃ := hlt dev.type
      have he := decimal_inj (by omega) (by omega) hdec
      omega

theorem length_ifPrefix_le (t : DeviceType) : t.ifPrefix.length ≤ 4 := by
  cases t <;> decide

theorem isAscii_ifPrefix {t : DeviceType} {ch : Char} (h : ch ∈ t.ifPrefix) : IsAscii ch := by
  cases t <;> simp only [DeviceType.ifPrefix, List.mem_cons, List.not_mem_nil, or_false] at h <;>
    rcases h with rfl | rfl | rfl | rfl <;> exact ⟨by decide, by decide⟩

theorem isAscii_linkName {k : IfCounters} {devices : List NetDevice} {ifname : List Char}
    (hs : Supported devices) (h : ifname ∈ linkNames k devices) : ∀ ch ∈ ifname, IsAscii ch := by
  obtain ⟨t, c, -, -, -, rfl⟩ := mem_linkNames hs h
  intro ch hch
  rcases List.mem_append.mp hch with hch | hch
  · exact isAscii_ifPrefix hch
  · exact isAscii_decimal hch

theorem length_linkName {k : IfCounters} {devices : List NetDevice} {ifname : List Char}
    (hs : Supported devices) (h : ifname ∈ linkNames k devices) : ifname.length ≤ 15 := by
  obtain ⟨t, c, -, -, -, rfl⟩ := mem_linkNames hs h
  have h₁ := length_ifPrefix_le t
  have h₂ := length_decimal c
  rw [List.length_append]
  omega

theorem map_ofNat_cString {s : List Char} (h : ∀ ch ∈ s, IsAscii ch) :
    ((cString s).dropLast).map (fun b => Char.ofNat b.toNat) = s := by
  rw [cString, List.dropLast_concat, List.map_map]
  refine (List.map_congr_left fun ch hch => ?_).trans (List.map_id s)
  have hn : (UInt8.ofNat ch.toNat).toNat = ch.toNat := by
    have hlt := (h ch hch).2
    rw [UInt8.toNat_ofNat']
    omega
  show Char.ofNat (UInt8.ofNat ch.toNat).toNat = ch
  rw [hn, Char.ofNat_toNat]

/-- A name can be read back from its bytes. -/
theorem cString_inj {s s' : List Char} (hs : ∀ ch ∈ s, IsAscii ch) (hs' : ∀ ch ∈ s', IsAscii ch)
    (h : cString s = cString s') : s = s' := by
  rw [← map_ofNat_cString hs, h, map_ofNat_cString hs']

/-! ### Decoding -/

/-- `ifi_index` of the `ifinfomsg` behind the header. -/
def ifiIndex (hdr : Memory) : ℕ := word hdr 4 (16 + 4)

/-- The attributes behind the `ifinfomsg`. -/
def ifiAttrs (hdr : Memory) : List (ℕ × List UInt8) :=
  attrs hdr (nlmsgLen hdr) 32 (nlmsgLen hdr - 32)

/-- A receiver of the message at `hdr` reads this link. -/
structure TellsLink (hdr : Memory) (ifi_index : ℕ) (ifname : List UInt8) : Prop where
  type : nlmsgType hdr = RTM_NEWLINK
  flags : nlmsgFlags hdr = NLM_F_MULTI
  index : ifiIndex hdr = ifi_index
  attrs : ifiAttrs hdr = [(IFLA_IFNAME, ifname)]

theorem newLink_decodes {stack hdr : Memory} {i : ℕ} {ifname : List Char}
    (h : Holds hdr 0 ((Reply.newLink i ifname).encode stack)) (hi : i < 2 ^ 32)
    (hname : ifname.length ≤ 15) : TellsLink hdr i (cString ifname) := by
  have hlen : (cString ifname).length = ifname.length + 1 := by simp [cString]
  have hifi : (ifinfomsg stack i).length = 16 := by simp [ifinfomsg]
  have hpay : ((Reply.newLink i ifname).msg stack).payload =
      ifinfomsg stack i ++ (nlattr IFLA_IFNAME (cString ifname) ++ List.replicate
        (align4 (4 + (cString ifname).length) - (4 + (cString ifname).length)) 0) := by
    have hpad : padded (ifinfomsg stack i) = ifinfomsg stack i := padded_of_align (by rw [hifi]; rfl)
    simp only [Reply.msg, nlaPut, nlmsgAppend, nlmsgAllocSimple, List.nil_append, hpad]
    rw [padded, length_nlattr]
  have hal := le_align4 (4 + (cString ifname).length)
  have hal' := align4_le (4 + (cString ifname).length)
  have hplen : ((Reply.newLink i ifname).msg stack).payload.length =
      16 + align4 (4 + (cString ifname).length) := by
    rw [hpay, List.length_append, List.length_append, hifi, length_nlattr, List.length_replicate]
    omega
  obtain ⟨ht, hf⟩ := NlMsg.holds_type h (show RTM_NEWLINK < 256 ^ 2 by decide)
    (show NLM_F_MULTI < 256 ^ 2 by decide)
  obtain ⟨hl, hp⟩ := NlMsg.holds h (by omega)
  rw [hplen] at hl
  rw [hpay] at hp
  obtain ⟨hinfo, hp⟩ := holds_append.mp hp
  rw [hifi] at hp
  have hattr := (holds_append.mp hp).1
  refine ⟨ht, hf, ?_, ?_⟩
  · obtain ⟨-, hinfo⟩ := holds_append.mp hinfo
    obtain ⟨-, hinfo⟩ := holds_append.mp hinfo
    obtain ⟨hindex, -⟩ := holds_append.mp hinfo
    exact hindex.word_toBytes (by omega)
  · obtain ⟨n, hn⟩ : ∃ n, nlmsgLen hdr = n + 2 := ⟨nlmsgLen hdr - 2, by omega⟩
    have hleft : nlmsgLen hdr - 32 = align4 (4 + (cString ifname).length) := by omega
    rw [ifiAttrs, hleft, hn, attrs_nlattr hattr (by decide) (by omega) hal, Nat.sub_self, attrs]
    rfl

theorem done_decodes {stack hdr : Memory} (h : Holds hdr 0 (Reply.done.encode stack)) :
    nlmsgType hdr = NLMSG_DONE :=
  (NlMsg.holds_type h (show NLMSG_DONE < 256 ^ 2 by decide) (show 0 < 256 ^ 2 by decide)).1

/-! ### Requests and `recvmsg` -/

/-- The replies to one request. -/
def linkGroup (names : List (List Char)) : List Reply := newLinks 0 names ++ [.done]

/-- The replies among the values that have been stored. -/
def newReplies (s s' : St) : List Reply :=
  (s'.d.stores.take (s'.d.stores.length - s.d.stores.length)).reverse.filterMap fun store =>
    match store.2.2 with
    | .reply r => some r
    | _ => none

/-- A sequence of calls on the netlink socket `nl`: `n` requests for the links have been sent, the
replies `rs` received.  What happens in between leaves the devices and the queue alone. -/
inductive Exchange (nl : NlId) (s : St) : ℕ → List Reply → St → Prop
  | start : Exchange nl s 0 [] s
  | sendto {n : ℕ} {rs : List Reply} {s₁ s₂ : St} {res : SyscallHandlerStatusCode} {buf : Iovec}
      {flags : ℤ} : Exchange nl s n rs s₁ → (∀ hdr ∈ buf.msgs, hdr = .getLink true) →
      (nlHandleSendTo nl buf flags).run s₁ = .ok (res, s₂) →
      Exchange nl s (n + buf.msgs.length) rs s₂
  | sendmsg {n : ℕ} {rs : List Reply} {s₁ s₂ : St} {res : SyscallHandlerStatusCode}
      {msg_iov : List Iovec} : Exchange nl s n rs s₁ →
      (∀ iov ∈ msg_iov, ∀ hdr ∈ iov.msgs, hdr = .getLink true) →
      (nlHandleSendMsg nl msg_iov).run s₁ = .ok (res, s₂) →
      Exchange nl s (n + (msg_iov.map fun iov => iov.msgs.length).sum) rs s₂
  | recvmsg {n : ℕ} {rs : List Reply} {s₁ s₂ : St} {res : SyscallHandlerStatusCode}
      {iov_base : Ptr} {iov_len : ℕ} : Exchange nl s n rs s₁ →
      (nlHandleRecvMsg nl iov_base iov_len).run s₁ = .ok (res, s₂) →
      Exchange nl s n (rs ++ newReplies s₁ s₂) s₂
  | other {n : ℕ} {rs : List Reply} {s₁ s₂ : St} : Exchange nl s n rs s₁ →
      s₂.c.app.devices = s₁.c.app.devices →
      (s₂.d.nls nl).replyQueue = (s₁.d.nls nl).replyQueue → Exchange nl s n rs s₂

section Exchange

variable {nl : NlId} {s : St} {devices : List NetDevice}

/-- The devices stay, the replies `rs` are queued. -/
def Queues (nl : NlId) (rs : List Reply) (s s' : St) : Prop :=
  s'.c.app.devices = s.c.app.devices ∧
    (s'.d.nls nl).replyQueue = (s.d.nls nl).replyQueue ++ rs

theorem Queues.refl (s : St) : Queues nl [] s s := ⟨rfl, (List.append_nil _).symm⟩

theorem Queues.trans {rs rs' : List Reply} {s s' s'' : St} (h : Queues nl rs s s')
    (h' : Queues nl rs' s' s'') : Queues nl (rs ++ rs') s s'' :=
  ⟨h'.1.trans h.1, by rw [h'.2, h.2, List.append_assoc]⟩

theorem Queues.trans_nil {rs : List Reply} {s s' s'' : St} (h : Queues nl rs s s')
    (h' : Queues nl [] s' s'') : Queues nl rs s s'' := by
  have h := h.trans h'
  rwa [List.append_nil] at h

theorem nlFake_frame {v : ℤ} {res : SyscallHandlerStatusCode} :
    Frames (fun s s' => s'.c.app = s.c.app ∧ s'.d = s.d) (nlFake nl v res) := by
  intro s
  unfold nlFake
  simp only [wp_bind, wp_get]
  refine wp_fakeAt (fun c' hc' => ?_) fun c' hc' => ?_
  · exact ⟨(Calm.of_completes hc').app, rfl⟩
  · exact ⟨(Calm.of_vanishes hc').app, rfl⟩

theorem nlFake_queues {v : ℤ} {res : SyscallHandlerStatusCode} :
    Frames (Queues nl []) (nlFake nl v res) := by
  intro s
  refine (nlFake_frame s).mono fun _ s' h => ?_
  refine ⟨congrArg App.devices h.1, ?_⟩
  rw [h.2, List.append_nil]

theorem notifyRecv_queues : Frames (Queues nl []) (notifyRecv nl) := by
  intro s
  unfold notifyRecv
  simp only [wp_bind, wp_get]
  cases s.c.nlCallback nl with
  | none => exact (wp_pure _ _ _).mpr (Queues.refl s)
  | some cl =>
      refine wp_selectNetlinkCallback (fun _ => Queues.refl s) fun c' _ hc' => ?_
      have happ : c'.app = (s.c.claim cl).app := (Calm.of_finish hc').app
      exact ⟨congrArg App.devices happ, (List.append_nil _).symm⟩

/-- A request queues its replies, then a waiting `select` is told. -/
theorem run_getLink (hs : Supported devices) (hne : devices ≠ []) (hdev : s.c.app.devices = devices) :
    (processNlmsghdr nl (.getLink true)).run s = (notifyRecv nl).run
      { s with d := s.d.push nl (linkGroup (linkNames ⟨0, 0, 0⟩ devices)) } := by
  have hlinks : newLinks 0 (linkNames ⟨0, 0, 0⟩ devices) ≠ [] := by
    intro h
    have hlen := length_linkNames ⟨0, 0, 0⟩ devices
    rw [newLinks, List.map_eq_nil_iff, List.zipIdx_eq_nil_iff] at h
    rw [h] at hlen
    exact hne (List.eq_nil_of_length_eq_zero hlen.symm)
  subst hdev
  show (dumpRequest nl true (linkReplies 0 ⟨0, 0, 0⟩ s.c.app.devices)).run s = _
  rw [linkReplies_eq hs]
  show (notifyRecv nl).run { s with d := s.d.push nl (finalize _) } = _
  rw [finalize, if_neg hlinks, linkGroup]

theorem wp_processNlmsgs_getLink (hs : Supported devices) (hne : devices ≠ []) {msgs : List Nlmsg}
    (hmsgs : ∀ hdr ∈ msgs, hdr = .getLink true) (hdev : s.c.app.devices = devices) :
    wp (processNlmsgs nl msgs) (fun _ s' => Queues nl
      (List.replicate msgs.length (linkGroup (linkNames ⟨0, 0, 0⟩ devices))).flatten s s') s := by
  induction msgs generalizing s with
  | nil => exact (wp_pure _ _ _).mpr (Queues.refl s)
  | cons hdr msgs ih =>
      obtain rfl := hmsgs hdr List.mem_cons_self
      have hhead : wp (processNlmsghdr nl (.getLink true)) (fun _ s' => Queues nl
          (linkGroup (linkNames ⟨0, 0, 0⟩ devices)) s s') s := by
        intro u s' hr
        rw [run_getLink hs hne hdev] at hr
        have hpush : Queues nl (linkGroup (linkNames ⟨0, 0, 0⟩ devices)) s
            { s with d := s.d.push nl (linkGroup (linkNames ⟨0, 0, 0⟩ devices)) } :=
          ⟨rfl, by simp [Data.push, Data.setNetlink]⟩
        exact hpush.trans_nil (notifyRecv_queues.elim hr)
      rw [processNlmsgs, wp_bind]
      refine hhead.mono fun _ s₁ h₁ => ?_
      have hrest := ih (fun m hm => hmsgs m (List.mem_cons_of_mem _ hm)) (h₁.1.trans hdev)
      exact hrest.mono fun _ s₂ h₂ => h₁.trans h₂

theorem wp_processIovecs_getLink (hs : Supported devices) (hne : devices ≠ []) {iovs : List Iovec}
    (hmsgs : ∀ iov ∈ iovs, ∀ hdr ∈ iov.msgs, hdr = .getLink true)
    (hdev : s.c.app.devices = devices) :
    wp (processIovecs nl iovs) (fun _ s' => Queues nl
      (List.replicate (iovs.map fun iov => iov.msgs.length).sum
        (linkGroup (linkNames ⟨0, 0, 0⟩ devices))).flatten s s') s := by
  induction iovs generalizing s with
  | nil => exact (wp_pure _ _ _).mpr (Queues.refl s)
  | cons iov iovs ih =>
      rw [processIovecs, wp_bind]
      refine (wp_processNlmsgs_getLink hs hne (hmsgs iov List.mem_cons_self) hdev).mono
        fun _ s₁ h₁ => ?_
      have hrest := ih (fun i hi => hmsgs i (List.mem_cons_of_mem _ hi)) (h₁.1.trans hdev)
      refine hrest.mono fun _ s₂ h₂ => ?_
      rw [List.map_cons, List.sum_cons, List.replicate_add, List.flatten_append]
      exact h₁.trans h₂

theorem newReplies_of_stores {s s' : St} (h : s'.d.stores = s.d.stores) : newReplies s s' = [] := by
  rw [newReplies, h, Nat.sub_self, List.take_zero]
  rfl

/-- `recvmsg` takes what it stores from the head of the queue. -/
theorem wp_recvMsg {iov_base : Ptr} {iov_len : ℕ} :
    wp (nlHandleRecvMsg nl iov_base iov_len) (fun _ s' =>
      s'.c.app.devices = s.c.app.devices ∧
        newReplies s s' ++ (s'.d.nls nl).replyQueue = (s.d.nls nl).replyQueue) s := by
  unfold nlHandleRecvMsg
  simp only [wp_bind, wp_get]
  cases hq : (s.d.nls nl).replyQueue with
  | nil =>
      refine (nlFake_frame s).mono fun _ s' h => ⟨congrArg App.devices h.1, ?_⟩
      rw [newReplies_of_stores (congrArg Data.stores h.2), h.2, hq, List.nil_append]
  | cons r rest =>
      unfold memcpyToTracee
      simp only [wp_bind, wp_ite, wp_throw, wp_get]
      refine ⟨fun _ => trivial, fun _ => ?_⟩
      cases s.c.threads (s.d.nls nl).pid with
      | none => simp only [wp_throw]
      | some th =>
          simp only [wp_modifyData]
          refine (nlFake_frame _).mono fun _ s' h => ⟨congrArg App.devices h.1, ?_⟩
          have hnew : newReplies s s' = [r] := by
            simp [newReplies, h.2, Data.setNetlink]
          rw [hnew, h.2]
          simp [Data.setNetlink]

/-- The groups of replies are received whole, in order and without anything in between. -/
theorem Exchange.received (hs : Supported devices) (hne : devices ≠ []) {n : ℕ} {rs : List Reply}
    {s' : St} (h : Exchange nl s n rs s') (hdev : s.c.app.devices = devices)
    (hq : (s.d.nls nl).replyQueue = []) : rs ++ (s'.d.nls nl).replyQueue =
      (List.replicate n (linkGroup (linkNames ⟨0, 0, 0⟩ devices))).flatten := by
  suffices H : s'.c.app.devices = devices ∧ rs ++ (s'.d.nls nl).replyQueue =
      (List.replicate n (linkGroup (linkNames ⟨0, 0, 0⟩ devices))).flatten from H.2
  have hsent : ∀ {n k : ℕ} {rs : List Reply} {s₁ s₂ : St}, s₁.c.app.devices = devices →
      rs ++ (s₁.d.nls nl).replyQueue =
        (List.replicate n (linkGroup (linkNames ⟨0, 0, 0⟩ devices))).flatten →
      Queues nl (List.replicate k (linkGroup (linkNames ⟨0, 0, 0⟩ devices))).flatten s₁ s₂ →
      s₂.c.app.devices = devices ∧ rs ++ (s₂.d.nls nl).replyQueue =
        (List.replicate (n + k) (linkGroup (linkNames ⟨0, 0, 0⟩ devices))).flatten := by
    intro n k rs s₁ s₂ hdev hgroups hq
    refine ⟨hq.1.trans hdev, ?_⟩
    rw [hq.2, ← List.append_assoc, hgroups, List.replicate_add, List.flatten_append]
  induction h with
  | start => exact ⟨hdev, by rw [hq]; rfl⟩
  | @sendto n rs s₁ s₂ res buf flags _ hmsgs hr ih =>
      refine hsent ih.1 ih.2 ?_
      have hw : wp (nlHandleSendTo nl buf flags) (fun _ s' => Queues nl
          (List.replicate buf.msgs.length (linkGroup (linkNames ⟨0, 0, 0⟩ devices))).flatten s₁ s')
          s₁ := by
        unfold nlHandleSendTo
        simp only [wp_bind, wp_ite, wp_throw]
        refine ⟨fun _ => trivial, fun _ => ?_⟩
        refine (wp_processNlmsgs_getLink hs hne hmsgs ih.1).mono fun _ s' h => ?_
        exact (nlFake_queues s').mono fun _ _ h' => h.trans_nil h'
      exact hw.elim hr
  | @sendmsg n rs s₁ s₂ res msg_iov _ hmsgs hr ih =>
      refine hsent ih.1 ih.2 ?_
      have hw : wp (nlHandleSendMsg nl msg_iov) (fun _ s' => Queues nl
          (List.replicate (msg_iov.map fun iov => iov.msgs.length).sum
            (linkGroup (linkNames ⟨0, 0, 0⟩ devices))).flatten s₁ s') s₁ := by
        unfold nlHandleSendMsg
        rw [wp_bind]
        refine (wp_processIovecs_getLink hs hne hmsgs ih.1).mono fun _ s' h => ?_
        exact (nlFake_queues s').mono fun _ _ h' => h.trans_nil h'
      exact hw.elim hr
  | @recvmsg n rs s₁ s₂ res iov_base iov_len _ hr ih =>
      obtain ⟨hdev₂, hq₂⟩ := wp_recvMsg.elim hr
      refine ⟨hdev₂.trans ih.1, ?_⟩
      rw [List.append_assoc, hq₂, ih.2]
  | @other n rs s₁ s₂ _ hdev₂ hq₂ ih =>
      refine ⟨hdev₂.trans ih.1, ?_⟩
      rw [hq₂, ih.2]

/-- With a large enough buffer the first reply is received, with its length as the result. -/
theorem run_recvMsg {r : Reply} {rest : List Reply} {iov_base : Ptr} {iov_len : ℕ} {th : Tracee}
    {next : Syscall} {retval : ℤ} (hq : (s.d.nls nl).replyQueue = r :: rest)
    (hlen : r.nlmsgLen ≤ iov_len) (hth : s.c.threads (s.d.nls nl).pid = some th)
    (hph : th.phase = .entry) (hw : s.c.env.wait s.c.waits = .stopped next retval) :
    ∃ s', (nlHandleRecvMsg nl iov_base iov_len).run s = .ok (.success, s') ∧
      s'.d.stores = ((s.d.nls nl).pid, iov_base, .reply r) :: s.d.stores ∧
      (s'.d.nls nl).replyQueue = rest ∧
      s'.c = s.c.answer (s.d.nls nl).pid th r.nlmsgLen := by
  let d' : Data := Data.setNetlink nl { s.d.nls nl with replyQueue := rest }
    { s.d with stores := ((s.d.nls nl).pid, iov_base, .reply r) :: s.d.stores }
  have hpid : (d'.nls nl).pid = (s.d.nls nl).pid := by simp [d', Data.setNetlink]
  have hrun : (nlHandleRecvMsg nl iov_base iov_len).run s =
      (nlFake nl r.nlmsgLen .success).run { s with d := d' } := by
    simp [nlHandleRecvMsg, memcpyToTracee, modifyData, hq, hth, not_lt.mpr hlen]
    rfl
  refine ⟨⟨s.c.answer (s.d.nls nl).pid th r.nlmsgLen, d'⟩, ?_, rfl, ?_, rfl⟩
  · rw [hrun]
    show (fakeAt (d'.nls nl).pid r.nlmsgLen .success).run { s with d := d' } = _
    rw [hpid]
    exact run_fakeAt (s := { s with d := d' }) hth hph hw
  · simp [d', Data.setNetlink]

/-! ### Steps of the emulator -/

theorem NlStep.queue {nl' : NlId} (hne : nl ≠ nl') {s' : St} (h : NlStep nl' s s') :
    (s'.d.nls nl).replyQueue = (s.d.nls nl).replyQueue := by
  cases h with
  | push => simp [Data.push, Data.setNetlink, hne]
  | route => rfl
  | notify => rfl

theorem NlWork.queue {nl' : NlId} (hne : nl ≠ nl') {s' : St} (h : NlWork nl' s s') :
    (s'.d.nls nl).replyQueue = (s.d.nls nl).replyQueue := by
  induction h with
  | refl => rfl
  | tail _ h ih => exact (h.queue hne).trans ih

theorem Quiet.queue {d d' : Data} (h : Quiet d d') :
    (d'.nls nl).replyQueue = (d.nls nl).replyQueue := by rw [h.nls]

theorem Edit.queue {call : Syscall} {p : Pid} {d d' : Data} (h : Edit call p d d')
    (hnl : nl < d.nextNl) : (d'.nls nl).replyQueue = (d.nls nl).replyQueue := by
  cases h with
  | netlink _ hd =>
      rw [hd.queue]
      simp [Data.withFds, Data.newNetlink, hnl.ne]
  | quiet hd => exact hd.queue
  | random _ hd => exact hd.queue
  | socket _ hd => exact hd.queue
  | tcpSocket _ hd => exact hd.queue
  | closeSocket _ _ hd => exact hd.queue
  | closeNetlink _ _ _ hd => exact hd.queue
  | closeRandom _ _ hd => exact hd.queue
  | nonblocking _ hd => exact hd.queue
  | listenFailed _ _ hd => exact hd.queue

theorem St.returning_nls (sock : Option SockId) (conn : SockId) (s : St) :
    (s.returning sock conn).d.nls = s.d.nls := by
  unfold St.returning
  cases sock with
  | none => rfl
  | some sock =>
      split_ifs
      · rfl
      · rfl

/-- A call that the netlink socket does not handle leaves its queue alone. -/
theorem Handled.queue {call : Syscall} {res : SyscallHandlerStatusCode} {s' : St}
    (h : Handled call s res s') (hres : res ≠ .error) (hcall : netlinkOf s.d.fds call ≠ some nl)
    (hnl : nl < s.d.nextNl) : (s'.d.nls nl).replyQueue = (s.d.nls nl).replyQueue := by
  cases h with
  | error => exact absurd rfl hres
  | answered _ _ _ hd _ _ => exact hd.queue hnl
  | listened _ _ _ _ hd _ => exact hd.queue
  | accepted _ _ _ _ hd _ =>
      rw [St.returning_nls]
      exact hd.queue
  | @nlSend nl' _ _ _ _ hn _ hw _ =>
      have hne : nl ≠ nl' := by
        rintro rfl
        exact hcall hn
      exact hw.queue hne
  | @nlOther nl' _ _ _ _ _ hn _ _ hd _ =>
      have hne : nl ≠ nl' := by
        rintro rfl
        exact hcall hn
      rw [hd.queue]
      simp [Data.setNetlink, hne]
  | passed _ _ _ hd _ => exact hd.queue
  | unadvanced _ _ hd => exact hd.queue
  | recvNow _ _ _ hd _ => exact hd.queue
  | connectRefused _ _ _ hd => exact hd.queue
  | connectWait _ _ _ hd => exact hd.queue
  | connectNow _ _ _ hd _ => exact hd.queue
  | selectNow _ _ _ hd _ => exact hd.queue
  | _ => rfl

theorem step_queue {l : Label} {s' : St} (h : step s l = some s') (hnl : nl < s.d.nextNl)
    (hcall : ∀ p call, dispatched s l = some (p, call) → netlinkOf s.d.fds call ≠ some nl) :
    (s'.d.nls nl).replyQueue = (s.d.nls nl).replyQueue := by
  obtain ⟨-, -, ho⟩ := step_cases h
  generalize hl : l.what = what at ho
  cases ho with
  | @fired i e _ hev _ hf =>
      obtain ⟨t, kind⟩ := e
      have hev : s.c.events[i]? = some ⟨t, kind⟩ := hev
      cases hf with
      | gone _ _ => rfl
      | @dispatched p c₁ th res s₂ _ hc hth ha hp =>
          have hd : dispatched s l = some (p, th.origRax) :=
            dispatched_eq (resumes_eq hl hev rfl) (hc.catches hth)
          rw [hp.d]
          exact ha.handled.queue hp.ne_error (hcall p _ hd) hnl
      | timeoutStale _ => rfl
      | timeout _ _ => rfl
      | slept _ => rfl
      | removed hd => exact hd.queue
  | receivedRead _ _ hd _ => exact hd.queue
  | incomingLost _ _ hd => exact hd.queue
  | incomingStored _ _ hd => exact hd.queue
  | incomingSelect _ _ _ _ hd _ => exact hd.queue
  | incomingAccept _ _ _ hd _ =>
      rw [St.returning_nls]
      exact hd.queue
  | _ => rfl

/-- A step of the emulator that dispatches no call to the netlink socket can happen between the
calls of a sequence. -/
theorem Exchange.between {l : Label} {n : ℕ} {rs : List Reply} {s₀ s' : St}
    (h : Exchange nl s₀ n rs s) (hstep : step s l = some s') (hnl : nl < s.d.nextNl)
    (hcall : ∀ p call, dispatched s l = some (p, call) → netlinkOf s.d.fds call ≠ some nl) :
    Exchange nl s₀ n rs s' :=
  h.other (congrArg App.devices (step_app hstep)) (step_queue hstep hnl hcall)

end Exchange

/-! ### The dump of a node -/

/-- The replies to a request decode to one link for each device and the end of the dump. -/
structure LinkDump (devices : List NetDevice) (names : List (List Char)) : Prop where
  length : names.length = devices.length
  /-- they fit `char ifname[16]` -/
  fits : ∀ ifname ∈ names, (cString ifname).length ≤ 16
  distinct : (names.map cString).Nodup
  links : ∀ i ifname, names[i]? = some ifname →
    (linkGroup names)[i]? = some (.newLink i ifname) ∧
    ∀ stack hdr, Holds hdr 0 ((Reply.newLink i ifname).encode stack) →
      TellsLink hdr i (cString ifname)
  ends : (linkGroup names)[devices.length]? = some .done ∧
    (linkGroup names).length = devices.length + 1 ∧
    ∀ stack hdr, Holds hdr 0 (Reply.done.encode stack) → nlmsgType hdr = NLMSG_DONE

/-- `recvmsg` with a large enough buffer answers with the first reply of the queue. -/
def RecvAnswers (nl : NlId) : Prop :=
  ∀ (s : St) (r : Reply) (rest : List Reply) (iov_base : Ptr) (iov_len : ℕ) (th : Tracee)
    (next : Syscall) (retval : ℤ), (s.d.nls nl).replyQueue = r :: rest → r.nlmsgLen ≤ iov_len →
    s.c.threads (s.d.nls nl).pid = some th → th.phase = .entry →
    s.c.env.wait s.c.waits = .stopped next retval →
    ∃ s', (nlHandleRecvMsg nl iov_base iov_len).run s = .ok (.success, s') ∧
      s'.d.stores = ((s.d.nls nl).pid, iov_base, .reply r) :: s.d.stores ∧
      (s'.d.nls nl).replyQueue = rest ∧
      s'.c = s.c.answer (s.d.nls nl).pid th r.nlmsgLen

theorem linkDump {devices : List NetDevice} (hs : Supported devices)
    (hlt : devices.length < 2 ^ 32) : LinkDump devices (linkNames ⟨0, 0, 0⟩ devices) := by
  have hlen := length_linkNames ⟨0, 0, 0⟩ devices
  have hgroup : (newLinks 0 (linkNames ⟨0, 0, 0⟩ devices)).length = devices.length := by
    rw [newLinks, List.length_map, List.length_zipIdx, hlen]
  constructor
  case length => exact hlen
  case fits =>
    intro ifname hname
    have hle := length_linkName hs hname
    rw [cString, List.length_append, List.length_map, List.length_singleton]
    omega
  case distinct =>
    have hnodup := @linkNames_nodup ⟨0, 0, 0⟩ devices hs fun t => by
      cases t <;> simpa [IfCounters.count] using hlt
    refine (List.nodup_map_iff_inj_on hnodup).mpr fun x hx y hy he => ?_
    exact cString_inj (isAscii_linkName hs hx) (isAscii_linkName hs hy) he
  case links =>
    intro i ifname hname
    have hi : i < (linkNames ⟨0, 0, 0⟩ devices).length := (List.getElem?_eq_some_iff.mp hname).1
    have hmem := List.mem_of_getElem? hname
    refine ⟨?_, fun stack hdr h => newLink_decodes h (by omega) (length_linkName hs hmem)⟩
    rw [linkGroup, List.getElem?_append_left (by omega), newLinks, List.getElem?_map,
      List.getElem?_zipIdx, hname]
    simp
  case ends =>
    refine ⟨?_, ?_, fun stack hdr h => done_decodes h⟩
    · rw [linkGroup, List.getElem?_append_right hgroup.le, hgroup, Nat.sub_self]
      rfl
    · rw [linkGroup, List.length_append, hgroup, List.length_singleton]

/-- A request for the links queues one reply for each device and the end of the dump, whatever
devices of the supported classes the node has; over any sequence of requests and `recvmsg` the
groups are received whole and in order. -/
theorem getLink_dumps {devices : List NetDevice} (hs : Supported devices) (hne : devices ≠ [])
    (hlt : devices.length < 2 ^ 32) (nl : NlId) :
    LinkDump devices (linkNames ⟨0, 0, 0⟩ devices) ∧
    (∀ s : St, s.c.app.devices = devices → (processNlmsghdr nl (.getLink true)).run s =
      (notifyRecv nl).run
        { s with d := s.d.push nl (linkGroup (linkNames ⟨0, 0, 0⟩ devices)) }) ∧
    (∀ (s s' : St) (n : ℕ) (rs : List Reply), s.c.app.devices = devices →
      (s.d.nls nl).replyQueue = [] → Exchange nl s n rs s' →
      rs ++ (s'.d.nls nl).replyQueue =
        (List.replicate n (linkGroup (linkNames ⟨0, 0, 0⟩ devices))).flatten) ∧
    RecvAnswers nl := by
  refine ⟨linkDump hs hlt, fun s hdev => run_getLink hs hne hdev, ?_, ?_⟩
  · intro s s' n rs hdev hq h
    exact h.received hs hne hdev hq
  · intro s r rest iov_base iov_len th next retval hq hlen hth hph hw
    exact run_recvMsg hq hlen hth hph hw

/-- A node with a loopback device, two wifi devices and a point-to-point device. -/
def mixedDevices : List NetDevice :=
  [{ type := .loopback }, { type := .wifi }, { type := .pointToPoint }, { type := .wifi }]

/-- A thread with a netlink socket on a node with these devices. -/
def mixedState : St :=
  let s := St.initial { devices := mixedDevices, appPid_pos := Int.one_pos } (.script [.exit 0] [])
  ⟨{ s.c with threads := fun p => if p = 1 then some ⟨.entry, .getpid, false, 0, 0, 0⟩ else none },
    s.d.setNetlink 0 ⟨1, 0, 0, [], false⟩⟩

/-- The links are asked for twice in one buffer. -/
theorem mixedState_sends : ∃ s', Exchange 0 mixedState 2 [] s' ∧ (s'.d.nls 0).pid = 1 := by
  let buf : Iovec := { iov_len := 40, msgs := [.getLink true, .getLink true] }
  have hrun : ((nlHandleSendTo 0 buf 0).run mixedState).toOption.any
      (fun r => decide ((r.2.d.nls 0).pid = 1)) = true := by
    decide
  obtain ⟨res, s', hsend, hpid⟩ := returns_of_any hrun
  exact ⟨s', .sendto .start (by decide) hsend, of_decide_eq_true hpid⟩

theorem getLink_dumps_mixed :
    linkGroup (linkNames ⟨0, 0, 0⟩ mixedDevices) =
      [.newLink 0 ['l', 'o', '0'], .newLink 1 ['w', 'l', 'a', 'n', '0'],
        .newLink 2 ['e', 't', 'h', '0'], .newLink 3 ['w', 'l', 'a', 'n', '1'], .done] ∧
    LinkDump mixedDevices (linkNames ⟨0, 0, 0⟩ mixedDevices) ∧ RecvAnswers 0 ∧
    ∃ s', Exchange 0 mixedState 2 [.newLink 0 ['l', 'o', '0']] s' ∧
      [.newLink 0 ['l', 'o', '0']] ++ (s'.d.nls 0).replyQueue =
        (List.replicate 2 (linkGroup (linkNames ⟨0, 0, 0⟩ mixedDevices))).flatten := by
  have hs : Supported mixedDevices := by
    intro dev hdev
    fin_cases hdev <;> decide
  obtain ⟨hdump, -, hreceived, hrecv⟩ := getLink_dumps hs (by decide) (by decide) 0
  refine ⟨by decide, hdump, hrecv, ?_⟩
  obtain ⟨s₁, hsent, hpid⟩ := mixedState_sends
  -- the thread gets to its next call
  let s₂ : St := ⟨{ mixedState.c with app := s₁.c.app }, s₁.d⟩
  have hnext : Exchange 0 mixedState 2 [] s₂ := .other hsent rfl rfl
  have hthread : s₂.c.threads (s₂.d.nls 0).pid = some ⟨.entry, .getpid, false, 0, 0, 0⟩ := by
    rw [show (s₂.d.nls 0).pid = 1 from hpid]
    rfl
  obtain ⟨s₃, hrun, hstores, -, -⟩ := hrecv s₂ (.newLink 0 ['l', 'o', '0']) _ 8 4096 _ _ _
    (hreceived _ _ _ _ rfl rfl hnext) (by decide) hthread rfl rfl
  have hnew : newReplies s₂ s₃ = [.newLink 0 ['l', 'o', '0']] := by
    simp [newReplies, hstores]
  have hall : Exchange 0 mixedState 2 ([] ++ newReplies s₂ s₃) s₃ := .recvmsg hnext hrun
  rw [hnew, List.nil_append] at hall
  exact ⟨s₃, hall, hreceived _ _ _ _ rfl rfl hall⟩

end Grail
