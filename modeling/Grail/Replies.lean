import Grail.Libnl
import Grail.Netlink

/-! # Netlink replies as bytes

The bytes of the replies in the queue of a netlink socket.  `ancillary_hdr` is a variable on the
stack of the emulator, which is copied as it is: `stack` are the bytes that were at its address
before, and what the source does not assign keeps them.

An `RTM_NEWADDR` reply copies 16 bytes of the 8-byte `ifaddrmsg`, and the address in the order of
the host.  A receiver finds the index and the prefix length (`newAddr_fields`), but behind them
it looks for attributes in bytes of the stack; for no device it can be sure to find the address
(`newAddr_decodes`). -/

namespace Grail

open Bytes Libnl

/-! ### Constants of rtnetlink -/

def NLMSG_ERROR : ℕ := 2
def NLMSG_DONE : ℕ := 3
def RTM_NEWLINK : ℕ := 16
def RTM_NEWADDR : ℕ := 20
def NLM_F_MULTI : ℕ := 2
def NLM_F_ACK : ℕ := 4
def IFLA_IFNAME : ℕ := 3
def IFA_ADDRESS : ℕ := 1
def RT_SCOPE_HOST : UInt8 := 254

/-! ### Encoding -/

/-- `struct ifinfomsg`; the padding byte behind the family is not assigned. -/
def ifinfomsg (stack : Memory) (ifi_index : ℕ) : List UInt8 :=
  [0, stack 1] ++ (toBytes 2 0 ++ (toBytes 4 ifi_index ++ (toBytes 4 0 ++ toBytes 4 0)))

/-- `struct ifaddrmsg`. -/
def ifaddrmsg (ifa_prefixlen ifa_index : ℕ) : List UInt8 :=
  [UInt8.ofNat AF_INET.toNat, UInt8.ofNat ifa_prefixlen, 0, RT_SCOPE_HOST] ++ toBytes 4 ifa_index

/-- The string with its final zero. -/
def cString (s : List Char) : List UInt8 := s.map (fun ch => UInt8.ofNat ch.toNat) ++ [0]

/-- The message that `ProcessNlmsghdr` pushes. -/
def Reply.msg (stack : Memory) : Reply → NlMsg
  | .newLink ifi_index ifname =>
      nlaPut (nlmsgAppend (nlmsgAllocSimple RTM_NEWLINK NLM_F_MULTI) (ifinfomsg stack ifi_index))
        IFLA_IFNAME (cString ifname)
  | .newAddr ifa_index ifa_prefixlen addr =>
      -- `sizeof(struct ifinfomsg)` bytes of an `ifaddrmsg`, and the address as an `uint32_t`
      nlaPut (nlmsgAppend (nlmsgAllocSimple RTM_NEWADDR NLM_F_MULTI)
        (ifaddrmsg ifa_prefixlen ifa_index ++ read stack 8 8)) IFA_ADDRESS (toBytes 4 addr)
  | .done => nlmsgAllocSimple NLMSG_DONE 0
  | .ack =>
      -- only the `error` of `struct nlmsgerr` is assigned
      nlmsgAppend (nlmsgAllocSimple NLMSG_ERROR NLM_F_ACK) (toBytes 4 0 ++ read stack 16 4)

def Reply.encode (stack : Memory) (r : Reply) : List UInt8 := (r.msg stack).bytes

theorem Reply.length_encode (stack : Memory) (r : Reply) : (r.encode stack).length = r.nlmsgLen := by
  rw [encode, NlMsg.length_bytes]
  cases r with
  | newLink ifi_index ifname =>
      simp [msg, nlaPut, nlmsgAppend, nlmsgAllocSimple, ifinfomsg, cString, nlmsgLen, align4]
      omega
  | newAddr ifa_index ifa_prefixlen addr =>
      simp [msg, nlaPut, nlmsgAppend, nlmsgAllocSimple, ifaddrmsg, nlmsgLen, align4]
  | done => rfl
  | ack => simp [msg, nlmsgAppend, nlmsgAllocSimple, nlmsgLen, align4]

/-! ### Decoding -/

/-- `ifa_prefixlen` of the `ifaddrmsg` behind the header. -/
def ifaPrefixlen (hdr : Memory) : ℕ := word hdr 1 (16 + 1)

def ifaIndex (hdr : Memory) : ℕ := word hdr 4 (16 + 4)

/-- The attributes behind the `ifaddrmsg`. -/
def ifaAttrs (hdr : Memory) : List (ℕ × List UInt8) :=
  attrs hdr (nlmsgLen hdr) 24 (nlmsgLen hdr - 24)

/-- A receiver of the message at `hdr` finds this address. -/
structure TellsAddr (hdr : Memory) (ifa_index ifa_prefixlen addr : ℕ) : Prop where
  index : ifaIndex hdr = ifa_index
  prefixlen : ifaPrefixlen hdr = ifa_prefixlen
  address : (IFA_ADDRESS, toBytesBE 4 addr) ∈ ifaAttrs hdr

section NewAddr

variable {stack hdr : Memory} {i p addr : ℕ}

/-- The parts of an `RTM_NEWADDR` reply in memory. -/
theorem newAddr_holds (h : Holds hdr 0 ((Reply.newAddr i p addr).encode stack)) :
    nlmsgLen hdr = 40 ∧ Holds hdr 16 (ifaddrmsg p i) ∧ Holds hdr 24 (read stack 8 8) ∧
      Holds hdr 32 (nlattr IFA_ADDRESS (toBytes 4 addr)) := by
  have hanc : (ifaddrmsg p i ++ read stack 8 8).length = 16 := by simp [ifaddrmsg]
  have hpad : padded (ifaddrmsg p i ++ read stack 8 8) = ifaddrmsg p i ++ read stack 8 8 :=
    padded_of_align (by rw [hanc]; rfl)
  have hattr : padded (nlattr IFA_ADDRESS (toBytes 4 addr)) = nlattr IFA_ADDRESS (toBytes 4 addr) :=
    padded_of_align (by rw [length_nlattr, length_toBytes]; rfl)
  have hpay : ((Reply.newAddr i p addr).msg stack).payload =
      ifaddrmsg p i ++ (read stack 8 8 ++ nlattr IFA_ADDRESS (toBytes 4 addr)) := by
    simp only [Reply.msg, nlaPut, nlmsgAppend, nlmsgAllocSimple, List.nil_append, hpad, hattr,
      List.append_assoc]
  have hlen : ((Reply.newAddr i p addr).msg stack).payload.length = 24 := by
    rw [hpay]
    simp [ifaddrmsg]
  obtain ⟨hl, hp⟩ := NlMsg.holds h (by omega)
  rw [hlen] at hl
  rw [hpay] at hp
  obtain ⟨hifa, hp⟩ := holds_append.mp hp
  obtain ⟨hgap, hp⟩ := holds_append.mp hp
  have h8 : (ifaddrmsg p i).length = 8 := by simp [ifaddrmsg]
  rw [h8] at hgap hp
  rw [length_read] at hp
  exact ⟨hl, hifa, hgap, hp⟩

/-- The index and the prefix length are found. -/
theorem newAddr_fields (h : Holds hdr 0 ((Reply.newAddr i p addr).encode stack))
    (hi : i < 2 ^ 32) (hp : p ≤ 32) : ifaIndex hdr = i ∧ ifaPrefixlen hdr = p := by
  obtain ⟨-, hifa, -, -⟩ := newAddr_holds h
  obtain ⟨hfields, hindex⟩ := holds_append.mp hifa
  refine ⟨hindex.word_toBytes (by omega), ?_⟩
  have hb : hdr (16 + 1) = UInt8.ofNat p := holds_iff.mp hfields 1 (by simp)
  have hn : (UInt8.ofNat p).toNat = p % 256 := UInt8.toNat_ofNat'
  rw [ifaPrefixlen, word_one, hb, hn]
  omega

/-- Where the stack has zeros, no attribute is found. -/
theorem newAddr_zero (h : Holds hdr 0 ((Reply.newAddr i p addr).encode fun _ => 0)) :
    ifaAttrs hdr = [] := by
  obtain ⟨hl, -, hgap, -⟩ := newAddr_holds h
  have hz : word hdr 2 24 = 0 := by
    have hb := holds_iff.mp hgap
    have h0 : hdr 24 = 0 := hb 0 (by simp)
    have h1 : hdr (24 + 1) = 0 := hb 1 (by simp)
    simp [word, Bytes.read, List.range_succ, h0, h1]
  rw [ifaAttrs, hl, attrs]
  simp only [hz]
  rfl

/-- Where the stack has an attribute that is skipped, the address is found with its bytes in the
order of the host. -/
theorem newAddr_skipped {nla_type : ℕ} {data : List UInt8}
    (h : Holds hdr 0 ((Reply.newAddr i p addr).encode stack))
    (hstack : read stack 8 8 = nlattr nla_type data) (htype : nla_type < 2 ^ 16) :
    ifaAttrs hdr = [(nla_type, data), (IFA_ADDRESS, toBytes 4 addr)] := by
  obtain ⟨hl, -, hgap, haddr⟩ := newAddr_holds h
  have hlen : 4 + data.length = 8 := by
    rw [← length_nlattr nla_type, ← hstack, length_read]
  rw [hstack] at hgap
  rw [ifaAttrs, hl, attrs_nlattr hgap (by omega) (by omega) (by omega), hlen]
  rw [show align4 8 = 8 from rfl, attrs_nlattr haddr (by decide) (by simp) (by simp), length_toBytes]
  rfl

end NewAddr

/-! ### The reply to `RTM_GETADDR` -/

/-- The `k`-th reply is about the first address `a` of the `k`-th device. -/
def AddrReply (devices : List NetDevice) (rs : List Reply) (k : ℕ) (a : InterfaceAddress)
    (r : Reply) : Prop :=
  (devices[k]?.bind fun dev => dev.addresses.head?) = some a ∧ rs[k]? = some r

theorem addrReplies_head {i : ℕ} {dev : NetDevice} {devices : List NetDevice} {rs : List Reply}
    (h : addrReplies i (dev :: devices) = .ok rs) : ∃ a rest, dev.addresses.head? = some a ∧
      addrReplies (i + 1) devices = .ok rest ∧
      rs = .newAddr i a.getPrefixLength a.getLocal :: rest := by
  rw [addrReplies] at h
  cases ha : dev.addresses with
  | nil =>
      rw [ha] at h
      cases h
  | cons a as =>
      rw [ha] at h
      cases hrest : addrReplies (i + 1) devices with
      | error e =>
          rw [hrest] at h
          cases h
      | ok rest =>
          rw [hrest] at h
          cases h
          exact ⟨a, rest, rfl, rfl, rfl⟩

theorem addrReplies_get {i : ℕ} {devices : List NetDevice} {rs : List Reply}
    (h : addrReplies i devices = .ok rs) {k : ℕ} {a : InterfaceAddress} {r : Reply}
    (hr : AddrReply devices rs k a r) :
    r = .newAddr (i + k) a.getPrefixLength a.getLocal ∧ k < devices.length := by
  obtain ⟨ha, hr⟩ := hr
  induction devices generalizing i rs k with
  | nil => cases ha
  | cons dev devices ih =>
      obtain ⟨a', rest, ha', hrest, rfl⟩ := addrReplies_head h
      cases k with
      | zero =>
          have haa : some a' = some a := ha' ▸ ha
          cases haa
          cases hr
          exact ⟨rfl, Nat.succ_pos _⟩
      | succ k =>
          obtain ⟨hr, hlt⟩ := ih hrest ha hr
          rw [hr, List.length_cons]
          refine ⟨?_, by omega⟩
          congr 1
          omega

/-- Every reply tells the index and the prefix length of its interface; that it tells the address,
whatever was on the stack, holds for no device.  Where the stack has an attribute of another type,
the address is told exactly if its bytes read the same in both orders. -/
theorem newAddr_decodes {devices : List NetDevice} {rs : List Reply}
    (h : addrReplies 0 devices = .ok rs) (hn : devices.length < 2 ^ 32) :
    (∀ k a r, AddrReply devices rs k a r → ∀ stack hdr, Holds hdr 0 (r.encode stack) →
      ifaIndex hdr = k ∧ ifaPrefixlen hdr = a.getPrefixLength) ∧
    ((∀ k a r, AddrReply devices rs k a r → ∀ stack hdr, Holds hdr 0 (r.encode stack) →
      TellsAddr hdr k a.getPrefixLength a.getLocal) ↔ devices = []) ∧
    (∀ k a r, AddrReply devices rs k a r → ∀ stack hdr, Holds hdr 0 (r.encode stack) →
      ∀ nla_type data, read stack 8 8 = nlattr nla_type data → nla_type < 2 ^ 16 →
        nla_type ≠ IFA_ADDRESS → (TellsAddr hdr k a.getPrefixLength a.getLocal ↔
          toBytes 4 a.getLocal = toBytesBE 4 a.getLocal)) := by
  have hfields : ∀ k a r, AddrReply devices rs k a r → ∀ stack hdr, Holds hdr 0 (r.encode stack) →
      ifaIndex hdr = k ∧ ifaPrefixlen hdr = a.getPrefixLength := by
    intro k a r hr stack hdr hb
    obtain ⟨rfl, hk⟩ := addrReplies_get h hr
    rw [Nat.zero_add] at hb
    exact newAddr_fields hb (by omega) a.getPrefixLength.is_le
  refine ⟨hfields, ⟨?_, ?_⟩, ?_⟩
  · intro htells
    cases devices with
    | nil => rfl
    | cons dev devices =>
        obtain ⟨a, rest, ha, -, rfl⟩ := addrReplies_head h
        have hb := buffer_holds ((Reply.newAddr 0 a.getPrefixLength a.getLocal).encode
          fun _ => 0) fun _ => 0
        have htell := htells 0 a _ ⟨ha, rfl⟩ (fun _ => 0) _ hb
        have hmem := htell.address
        rw [newAddr_zero hb] at hmem
        exact absurd hmem List.not_mem_nil
  · rintro rfl k a r ⟨ha, -⟩
    cases ha
  · intro k a r hr stack hdr hb nla_type data hstack htype hne
    obtain ⟨hindex, hprefix⟩ := hfields k a r hr stack hdr hb
    obtain ⟨rfl, -⟩ := addrReplies_get h hr
    have hattrs := newAddr_skipped hb hstack htype
    constructor
    · intro htell
      have hmem := htell.address
      rw [hattrs, List.mem_cons, List.mem_singleton] at hmem
      rcases hmem with heq | heq
      · exact absurd (congrArg Prod.fst heq).symm hne
      · exact (congrArg Prod.snd heq).symm
    · intro heq
      refine ⟨hindex, hprefix, ?_⟩
      rw [hattrs, ← heq]
      exact List.mem_cons_of_mem _ List.mem_cons_self

/-- A point-to-point device with the address 10.0.0.1/24. -/
def ethDevice : NetDevice where
  type := .pointToPoint
  addresses := [⟨0x0a000001, 0xffffff00, 0x0a0000ff, classCLength⟩]

theorem newAddr_decodes_eth :
    let hdr := buffer ((Reply.newAddr 0 24 0x0a000001).encode fun _ => 0) fun _ => 0
    ifaIndex hdr = 0 ∧ ifaPrefixlen hdr = 24 := by
  have hr : addrReplies 0 [ethDevice] = .ok [.newAddr 0 24 0x0a000001] := rfl
  exact (newAddr_decodes hr (by decide)).1 0 ⟨0x0a000001, 0xffffff00, 0x0a0000ff, classCLength⟩ _
    ⟨rfl, rfl⟩ _ _ (buffer_holds _ _)

/-- The stack behind `ancillary_hdr`, with an attribute that a receiver skips. -/
def skippedStack : Memory := buffer [0, 0, 0, 0, 0, 0, 0, 0, 8, 0, 8, 0, 1, 2, 3, 4] fun _ => 0

/-- With zeros on the stack no address is found, and with an attribute on the stack the address
1.0.0.10. -/
theorem newAddr_misses :
    let r := Reply.newAddr 0 24 0x0a000001
    addrReplies 0 [ethDevice] = .ok [r] ∧
    ifaAttrs (buffer (r.encode fun _ => 0) fun _ => 0) = [] ∧
    ifaAttrs (buffer (r.encode skippedStack) fun _ => 0) =
      [(8, [1, 2, 3, 4]), (IFA_ADDRESS, [1, 0, 0, 10])] ∧
    ¬ ∀ k a r, AddrReply [ethDevice] [.newAddr 0 24 0x0a000001] k a r →
      ∀ stack hdr, Holds hdr 0 (r.encode stack) →
        TellsAddr hdr k a.getPrefixLength a.getLocal := by
  refine ⟨by decide, by decide, by decide, ?_⟩
  intro h
  have htell := h 0 ⟨0x0a000001, 0xffffff00, 0x0a0000ff, classCLength⟩ _ ⟨rfl, rfl⟩ (fun _ => 0) _
    (buffer_holds _ fun _ => 0)
  have hmem := htell.address
  exact absurd hmem (by decide)

end Grail
