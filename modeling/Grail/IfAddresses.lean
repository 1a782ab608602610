import Grail.IfRequests
import Grail.SockAddrs

/-! # Interface requests in the tracee's memory

The bytes of the answers to the interface requests.  The request object is copied, changed and
copied back; flags, address, mask and MTU share a union behind the name.  Addresses are
converted through their text, which gives network order (`makeBsdAddress_inet`); a mask is passed to
`htons`, which leaves its lower 16 bits only and puts them into the upper half of the address
(`makeBsdMask_inet`).  So no mask but 0.0.0.0 is reported (`ifreq_addresses`). -/

namespace Grail

open AddressSpace Bytes Ptrace

/-! ### `MakeBsdAddress` -/

/-- `MakeBsdAddress` for an `Ipv4Address`. -/
def makeBsdAddress (mem : Memory) (addr : ℕ) (ns3Address : ℕ) : Memory :=
  let mem := store mem addr (toBytes 2 AF_INET.toNat)
  match inetPton (print ns3Address) with
  | some sin_addr => store mem (addr + 4) sin_addr
  | none => mem

/-- `MakeBsdAddress` for an `Ipv4Mask`; the parameter of `htons` has 16 bits. -/
def makeBsdMask (mem : Memory) (addr : ℕ) (ns3Mask : ℕ) : Memory :=
  store (store mem addr (toBytes 2 AF_INET.toNat)) (addr + 4) (toBytes 4 (htons (ns3Mask % 2 ^ 16)))

def IFF_UP : ℕ := 0x1
def IFF_BROADCAST : ℕ := 0x2
def IFF_POINTOPOINT : ℕ := 0x10
def IFF_RUNNING : ℕ := 0x40
def IFF_MULTICAST : ℕ := 0x1000

/-- `myifreq.ifr_flags`, a `short`. -/
def ifrFlags (isLinkUp isBroadcast isMulticast isPointToPoint : Bool) : ℕ :=
  let flags := 0
  let flags := if isLinkUp then flags ||| (IFF_UP ||| IFF_RUNNING) else flags
  let flags := if isBroadcast then flags ||| IFF_BROADCAST else flags
  let flags := if isMulticast then flags ||| IFF_MULTICAST else flags
  if isPointToPoint then flags ||| IFF_POINTOPOINT else flags

/-- What a request that stores the value does to `myifreq`.  `ifr_flags`, `ifr_addr`,
`ifr_broadaddr`, `ifr_netmask` and `ifr_mtu` are members of the union `ifr_ifru`. -/
def Val.fill : Val → Memory → ℕ → Memory
  | .ifFlags up broadcast multicast pointToPoint, mem, ifr_ifru =>
      store mem ifr_ifru (toBytes 2 (ifrFlags up broadcast multicast pointToPoint))
  | .ifAddr addr, mem, ifr_ifru => makeBsdAddress mem ifr_ifru addr
  | .ifMask mask, mem, ifr_ifru => makeBsdMask mem ifr_ifru mask
  | .ifMtu mtu, mem, ifr_ifru => store mem ifr_ifru (toBytes 4 mtu)
  | _, mem, _ => mem

/-- `MemcpyFromTracee(pid, &myifreq, ifreq, sizeof(myifreq))`, what is done to `myifreq`, and
`MemcpyToTracee(pid, ifreq, &myifreq, sizeof(myifreq))`. -/
def replyIfreq (v : Val) (tracee : Space) (mem : Memory) (ifreq : ℕ) : Option Space := do
  let myifreq := (Ptrace.memcpyFromTracee tracee mem 0 ifreq 40).2
  let (_, tracee) ← Ptrace.memcpyToTracee tracee (v.fill myifreq 16) ifreq 0 40
  return tracee

/-! ### What the tracee reads -/

/-- The family of the `sockaddr_in` at `a`. -/
def sinFamily (m : Memory) (a : ℕ) : ℕ := word m 2 a

/-- The address bytes of the `sockaddr_in` at `a`, in network order. -/
def sinAddr (m : Memory) (a : ℕ) : ℕ := wordBE m 4 (a + 4)

/-- The memory of the tracee, as far as it is mapped. -/
def bytesOf (tracee : Space) : Memory := fun x => (tracee x).getD 0

/-- The tracee finds the address `addr` in the `sockaddr_in` at `a`. -/
structure IsInet (m : Memory) (a addr : ℕ) : Prop where
  family : sinFamily m a = AF_INET.toNat
  addr : sinAddr m a = addr

section conversions

variable {m mem : Memory} {a addr : ℕ}

theorem holds_store (m : Memory) (a : ℕ) (bs : List UInt8) : Holds (store m a bs) a bs := by
  rw [holds_iff]
  exact fun i hi => store_of_lt hi

theorem holds_store_of_lt {m : Memory} {a b : ℕ} {bs cs : List UInt8} (h : Holds m a bs)
    (hb : a + bs.length ≤ b) : Holds (store m b cs) a bs := by
  rw [holds_iff] at h ⊢
  intro i hi
  rw [store_outside (by omega), h i hi]

/-- A family and the bytes of an address. -/
theorem isInet_store {bs : List UInt8} (hlen : bs.length = 4) :
    IsInet (store (store mem a (toBytes 2 AF_INET.toNat)) (a + 4) bs) a (ofBytes bs.reverse) where
  family := by
    have hlow : a + (toBytes 2 AF_INET.toNat).length ≤ a + 4 := by
      rw [length_toBytes]
      omega
    have hfamily := @holds_store_of_lt _ a (a + 4) _ bs
      (holds_store mem a (toBytes 2 AF_INET.toNat)) hlow
    exact hfamily.word_toBytes (by decide)
  addr := by
    have haddr := holds_store (store mem a (toBytes 2 AF_INET.toNat)) (a + 4) bs
    rw [Holds, hlen] at haddr
    rw [sinAddr, wordBE, haddr]

theorem makeBsdAddress_inet (h : addr < 2 ^ 32) : IsInet (makeBsdAddress mem a addr) a addr := by
  have hinet := @isInet_store mem a _ (length_toBytesBE 4 addr)
  rw [toBytesBE, List.reverse_reverse, ofBytes_toBytes,
    Nat.mod_eq_of_lt (by omega : addr < 256 ^ 4)] at hinet
  unfold makeBsdAddress
  rw [inetPton_print]
  exact hinet

/-- The lower half of the mask becomes the upper half. -/
theorem makeBsdMask_inet (mask : ℕ) :
    IsInet (makeBsdMask mem a mask) a (mask % 2 ^ 16 * 2 ^ 16) := by
  obtain ⟨hlow, hhigh⟩ := htons_bytes (mask % 2 ^ 16)
  have hvalue : ofBytes (toBytes 4 (htons (mask % 2 ^ 16))).reverse = mask % 2 ^ 16 * 2 ^ 16 := by
    have hzero : mask % 2 ^ 16 % 256 / 256 = 0 := by omega
    simp only [toBytes, List.reverse_cons, List.reverse_nil, List.nil_append, List.cons_append,
      ofBytes_cons, ofBytes_nil, UInt8.toNat_ofNat', hzero, hlow, hhigh]
    omega
  exact hvalue ▸ isInet_store (length_toBytes 4 (htons (mask % 2 ^ 16)))

end conversions

/-- The reply is stored: what was made of the request object is what the tracee finds. -/
theorem replyIfreq_run {v : Val} {tracee : Space} {mem : Memory} {ifreq : ℕ}
    (h : Mapped tracee ifreq 40) : ∃ tracee', replyIfreq v tracee mem ifreq = some tracee' ∧
      ∀ i < 40, bytesOf tracee' (ifreq + i) =
        v.fill (Ptrace.memcpyFromTracee tracee mem 0 ifreq 40).2 16 i := by
  have ht : Touched tracee ifreq 40 := (touched_iff h).mpr (Or.inl rfl)
  obtain ⟨tracee', hrun, hcopy⟩ := @memcpyToTracee_copied tracee
    (v.fill (Ptrace.memcpyFromTracee tracee mem 0 ifreq 40).2 16) ifreq 0 40 ht
  refine ⟨tracee', ?_, fun i hi => ?_⟩
  · simp only [replyIfreq, hrun]
    rfl
  · rw [bytesOf, hcopy.inside i hi, Nat.zero_add]
    rfl

/-! ### Replies -/

/-- The handler stores a value and answers with 0; in the tracee's memory this gives `tracee'`. -/
def Replied (s : St) (fd : Fd) (th : Tracee) (ifr : Ptr) (name : List Char) (tracee : Space)
    (mem : Memory) (request : ℕ) (tracee' : Space) : Prop :=
  ∃ v, (handleIoctl fd request (some ⟨ifr, name⟩)).run s = .ok (.success, s.reported th ifr v) ∧
    replyIfreq v tracee mem ifr = some tracee'

theorem isInet_congr {m m' : Memory} {a a' addr : ℕ}
    (h : ∀ n k, k + n ≤ 8 → read m n (a + k) = read m' n (a' + k)) (h' : IsInet m' a' addr) :
    IsInet m a addr where
  family := by
    have hread : read m 2 a = read m' 2 a' := h 2 0 (by omega)
    rw [sinFamily, word, hread]
    exact h'.family
  addr := by
    rw [sinAddr, wordBE, h 4 4 (by omega)]
    exact h'.addr

section requests

variable {s : St} {fd : Fd} {th : Tracee} {ifr : Ptr} {name : List Char} {request : ℕ}
  {wifi : NetDevice} {tracee tracee₁ tracee₂ : Space} {mem : Memory}

/-- A request has one reply. -/
theorem Replied.unique (h₁ : Replied s fd th ifr name tracee mem request tracee₁)
    (h₂ : Replied s fd th ifr name tracee mem request tracee₂) : tracee₁ = tracee₂ := by
  obtain ⟨v₁, hrun₁, hreply₁⟩ := h₁
  obtain ⟨v₂, hrun₂, hreply₂⟩ := h₂
  have hst := congrArg Prod.snd (Except.ok.inj (hrun₁.symm.trans hrun₂))
  have hstores : (s.c.pid, ifr, v₁) :: s.d.stores = (s.c.pid, ifr, v₂) :: s.d.stores :=
    congrArg (fun s : St => s.d.stores) hst
  obtain rfl : v₁ = v₂ := congrArg (fun x => x.2.2) (List.cons.inj hstores).1
  exact Option.some.inj (hreply₁.symm.trans hreply₂)

/-- What the tracee reads in its request object is what was made of the copy. -/
theorem replied_reads {v : Val} (h : AtRequest s fd th)
    (hdev : getWifiDeviceByName s.c.app.devices name = .ok (some wifi))
    (hv : Stores wifi request v) (hmapped : Mapped tracee ifr 40) (mem : Memory) :
    ∃ tracee' myifreq, Replied s fd th ifr name tracee mem request tracee' ∧
      ∀ n k, k + n ≤ 24 →
        read (bytesOf tracee') n (ifr + 16 + k) = read (v.fill myifreq 16) n (16 + k) := by
  obtain ⟨tracee', hrun, hbytes⟩ := @replyIfreq_run v tracee mem ifr hmapped
  refine ⟨tracee', (Ptrace.memcpyFromTracee tracee mem 0 ifr 40).2,
    ⟨v, ioctl_stores h hdev hv, hrun⟩, fun n k hk => ?_⟩
  refine List.map_congr_left fun i hi => ?_
  have hi := List.mem_range.mp hi
  rw [Nat.add_assoc, Nat.add_assoc, ← hbytes (16 + k + i) (by omega), Nat.add_assoc]

theorem replied {v : Val} {addr : ℕ} (h : AtRequest s fd th)
    (hdev : getWifiDeviceByName s.c.app.devices name = .ok (some wifi))
    (hv : Stores wifi request v) (hmapped : Mapped tracee ifr 40) (mem : Memory)
    (hfill : ∀ mem, IsInet (v.fill mem 16) 16 addr) :
    ∃ tracee', Replied s fd th ifr name tracee mem request tracee' ∧
      IsInet (bytesOf tracee') (ifr + 16) addr := by
  obtain ⟨tracee', myifreq, hrun, hreads⟩ := replied_reads h hdev hv hmapped mem
  exact ⟨tracee', hrun, isInet_congr (fun n k hk => hreads n k (by omega)) (hfill myifreq)⟩

/-- Local and broadcast address are reported as they are; the mask is reported as it is, and then
broadcast address and mask of the replies belong together, exactly if it is 0.0.0.0. -/
theorem ifreq_addresses {loc mask brd : UInt32} {len : Fin 33} (h : AtRequest s fd th)
    (hdev : getWifiDeviceByName s.c.app.devices name = .ok (some wifi))
    (ha : wifi.addresses.head? = some ⟨loc.toNat, mask.toNat, brd.toNat, len⟩)
    (hmapped : Mapped tracee ifr 40) (mem : Memory) :
    ∃ t₁ t₂ t₃, Replied s fd th ifr name tracee mem SIOCGIFADDR t₁ ∧
      Replied s fd th ifr name tracee mem SIOCGIFBRDADDR t₂ ∧
      Replied s fd th ifr name tracee mem SIOCGIFNETMASK t₃ ∧
      IsInet (bytesOf t₁) (ifr + 16) loc.toNat ∧ IsInet (bytesOf t₂) (ifr + 16) brd.toNat ∧
      sinFamily (bytesOf t₃) (ifr + 16) = AF_INET.toNat ∧
      (sinAddr (bytesOf t₃) (ifr + 16) = mask.toNat ∧
        (brd.toNat = loc.toNat ||| (2 ^ 32 - 1 - mask.toNat) →
          sinAddr (bytesOf t₂) (ifr + 16) = sinAddr (bytesOf t₁) (ifr + 16) |||
            (2 ^ 32 - 1 - sinAddr (bytesOf t₃) (ifr + 16))) ↔ mask = 0) := by
  obtain ⟨t₁, hr₁, h₁⟩ := replied h hdev (.addr ha) hmapped mem fun mem =>
    makeBsdAddress_inet loc.toNat_lt
  obtain ⟨t₂, hr₂, h₂⟩ := replied h hdev (.brdaddr ha) hmapped mem fun mem =>
    makeBsdAddress_inet brd.toNat_lt
  obtain ⟨t₃, hr₃, h₃⟩ := replied h hdev (.netmask ha) hmapped mem fun mem =>
    makeBsdMask_inet mask.toNat
  have hlt := mask.toNat_lt
  refine ⟨t₁, t₂, t₃, hr₁, hr₂, hr₃, h₁, h₂, h₃.family, ?_⟩
  rw [h₁.addr, h₂.addr, h₃.addr]
  constructor
  · rintro ⟨hmask, -⟩
    apply UInt32.toNat_inj.mp
    show mask.toNat = 0
    omega
  · rintro rfl
    exact ⟨rfl, id⟩

end requests

/-- The interface of a node in 10.0.0.0/24. -/
def classC : List NetDevice :=
  [{ type := .wifi, addresses := [⟨0x0a000001, 0xffffff00, 0x0a0000ff, classCLength⟩] }]

/-- 40 bytes of zeros at 8. -/
def zeroIfreq : Space := fun x => if 8 ≤ x ∧ x < 48 then some 0 else none

theorem ifreq_addresses_classC :
    let s := requestState classC
    let th : Tracee := ⟨.entry, .getpid, false, 0, 0, 0⟩
    let name := ['w', 'l', 'a', 'n', '0']
    ∃ t₁ t₂ t₃, Replied s 100 th 8 name zeroIfreq (fun _ => 0) SIOCGIFADDR t₁ ∧
      Replied s 100 th 8 name zeroIfreq (fun _ => 0) SIOCGIFBRDADDR t₂ ∧
      Replied s 100 th 8 name zeroIfreq (fun _ => 0) SIOCGIFNETMASK t₃ ∧
      IsInet (bytesOf t₁) 24 0x0a000001 ∧ IsInet (bytesOf t₂) 24 0x0a0000ff ∧
      sinFamily (bytesOf t₃) 24 = AF_INET.toNat ∧
      (sinAddr (bytesOf t₃) 24 = 0xffffff00 ∧
        (0x0a0000ff = 0x0a000001 ||| (2 ^ 32 - 1 - 0xffffff00) →
          sinAddr (bytesOf t₂) 24 = sinAddr (bytesOf t₁) 24 |||
            (2 ^ 32 - 1 - sinAddr (bytesOf t₃) 24)) ↔ (0xffffff00 : UInt32) = 0) :=
  @ifreq_addresses (requestState classC) 100 ⟨.entry, .getpid, false, 0, 0, 0⟩ 8
    ['w', 'l', 'a', 'n', '0'] _ zeroIfreq 0x0a000001 0xffffff00 0x0a0000ff classCLength
    (atRequest_requestState classC) (getWifiDeviceByName_wlan ['0'] rfl) rfl (by decide) _

/-- The mask 255.255.255.0 is reported as 255.0.0.0. -/
theorem netmask_classC :
    let s := requestState classC
    let th : Tracee := ⟨.entry, .getpid, false, 0, 0, 0⟩
    ∃ tracee', Replied s 100 th 8 ['w', 'l', 'a', 'n', '0'] zeroIfreq (fun _ => 0) SIOCGIFNETMASK
        tracee' ∧
      IsInet (bytesOf tracee') 24 0xff000000 ∧ ¬ IsInet (bytesOf tracee') 24 0xffffff00 := by
  intro s th
  obtain ⟨tracee', hr, hinet⟩ := @replied s 100 th 8 ['w', 'l', 'a', 'n', '0'] SIOCGIFNETMASK _
    zeroIfreq _ 0xff000000 (atRequest_requestState classC) (getWifiDeviceByName_wlan ['0'] rfl)
    (.netmask rfl) (by decide) (fun _ => 0) fun mem => makeBsdMask_inet 0xffffff00
  refine ⟨tracee', hr, hinet, fun h => ?_⟩
  exact absurd (hinet.addr.symm.trans h.addr) (by decide)

end Grail
