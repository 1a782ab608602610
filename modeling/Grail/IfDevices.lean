import Grail.IfAddresses

/-! # The device of an interface name

`RTM_GETLINK` counts the devices of a class, `GetNetDeviceByName` takes the first one.  So every
name that is reported for a wifi device stands for the first wifi device of the node, and the
requests tell the tracee the flags, the first address and the MTU of that one (`ioctl_firstWifi`).
The names of loopback devices are not supported. -/

namespace Grail

open Bytes AddressSpace

/-! ### Reports -/

/-- A flag word tells of a device what it is, and nothing else. -/
structure FlagsOf (dev : NetDevice) (flags : ℕ) : Prop where
  up : flags &&& IFF_UP ≠ 0 ↔ dev.isLinkUp = true
  running : flags &&& IFF_RUNNING ≠ 0 ↔ dev.isLinkUp = true
  broadcast : flags &&& IFF_BROADCAST ≠ 0 ↔ dev.isBroadcast = true
  multicast : flags &&& IFF_MULTICAST ≠ 0 ↔ dev.isMulticast = true
  pointToPoint : flags &&& IFF_POINTOPOINT ≠ 0 ↔ dev.isPointToPoint = true
  only : flags &&& (IFF_UP ||| IFF_RUNNING ||| IFF_BROADCAST ||| IFF_MULTICAST |||
    IFF_POINTOPOINT) = flags

/-- What the tracee finds in its request object `ifr` when a request reports about a device. -/
inductive Reports (dev : NetDevice) (m : Memory) (ifr : ℕ) : ℕ → Prop
  | flags : FlagsOf dev (word m 2 (ifr + 16)) → Reports dev m ifr SIOCGIFFLAGS
  | addr {a : InterfaceAddress} : dev.addresses.head? = some a →
      IsInet m (ifr + 16) a.getLocal → Reports dev m ifr SIOCGIFADDR
  | brdaddr {a : InterfaceAddress} : dev.addresses.head? = some a →
      IsInet m (ifr + 16) a.getBroadcast → Reports dev m ifr SIOCGIFBRDADDR
  | netmask {a : InterfaceAddress} : dev.addresses.head? = some a →
      IsInet m (ifr + 16) a.getMask → Reports dev m ifr SIOCGIFNETMASK
  | mtu : word m 4 (ifr + 16) = dev.getMtu → Reports dev m ifr SIOCGIFMTU

/-- Every request by the name of a device succeeds and reports about this device. -/
def SameDevice (devices : List NetDevice) : Prop :=
  ∀ (i : ℕ) (dev : NetDevice) (ifname : List Char), devices[i]? = some dev →
    (linkNames ⟨0, 0, 0⟩ devices)[i]? = some ifname →
    ∀ (s : St) (fd : Fd) (th : Tracee) (ifr : Ptr) (tracee : Space) (mem : Memory),
      s.c.app.devices = devices → AtRequest s fd th → Mapped tracee ifr 40 →
      ∀ request ∈ ifRequests, ∃ tracee', Replied s fd th ifr ifname tracee mem request tracee' ∧
        Reports dev (bytesOf tracee') ifr request

/-- The addresses of a device are `uint32_t`, its MTU is a `uint16_t`. -/
structure NetDevice.Typed (dev : NetDevice) : Prop where
  getLocal : ∀ a ∈ dev.addresses, a.getLocal < 2 ^ 32
  getBroadcast : ∀ a ∈ dev.addresses, a.getBroadcast < 2 ^ 32
  getMtu : dev.getMtu < 2 ^ 16

section conversions

variable {mem : Memory} {a : ℕ}

theorem ifrFlags_bits : ∀ up broadcast multicast pointToPoint : Bool,
    (ifrFlags up broadcast multicast pointToPoint &&& IFF_UP ≠ 0 ↔ up = true) ∧
    (ifrFlags up broadcast multicast pointToPoint &&& IFF_RUNNING ≠ 0 ↔ up = true) ∧
    (ifrFlags up broadcast multicast pointToPoint &&& IFF_BROADCAST ≠ 0 ↔ broadcast = true) ∧
    (ifrFlags up broadcast multicast pointToPoint &&& IFF_MULTICAST ≠ 0 ↔ multicast = true) ∧
    (ifrFlags up broadcast multicast pointToPoint &&& IFF_POINTOPOINT ≠ 0 ↔
      pointToPoint = true) ∧
    ifrFlags up broadcast multicast pointToPoint &&& (IFF_UP ||| IFF_RUNNING ||| IFF_BROADCAST |||
      IFF_MULTICAST ||| IFF_POINTOPOINT) = ifrFlags up broadcast multicast pointToPoint := by
  decide

theorem flagsOf_ifrFlags (dev : NetDevice) : FlagsOf dev
    (ifrFlags dev.isLinkUp dev.isBroadcast dev.isMulticast dev.isPointToPoint) := by
  obtain ⟨hup, hrunning, hbroadcast, hmulticast, hpoint, honly⟩ :=
    ifrFlags_bits dev.isLinkUp dev.isBroadcast dev.isMulticast dev.isPointToPoint
  exact ⟨hup, hrunning, hbroadcast, hmulticast, hpoint, honly⟩

theorem ifrFlags_lt (up broadcast multicast pointToPoint : Bool) :
    ifrFlags up broadcast multicast pointToPoint < 256 ^ 2 := by
  cases up <;> cases broadcast <;> cases multicast <;> cases pointToPoint <;> decide

theorem word_store {n v : ℕ} (hv : v < 256 ^ n) : word (store mem a (toBytes n v)) n a = v :=
  (holds_store mem a (toBytes n v)).word_toBytes hv

end conversions

section requests

variable {s : St} {fd : Fd} {th : Tracee} {ifr : Ptr} {name : List Char} {request : ℕ}
  {wifi : NetDevice} {tracee : Space}

/-- A number that a request stores is what the tracee reads. -/
theorem replied_word {v : Val} {n w : ℕ} (h : AtRequest s fd th)
    (hdev : getWifiDeviceByName s.c.app.devices name = .ok (some wifi))
    (hv : Stores wifi request v) (hmapped : Mapped tracee ifr 40) (mem : Memory) (hn : n ≤ 24)
    (hfill : ∀ mem, word (v.fill mem 16) n 16 = w) :
    ∃ tracee', Replied s fd th ifr name tracee mem request tracee' ∧
      word (bytesOf tracee') n (ifr + 16) = w := by
  obtain ⟨tracee', myifreq, hrun, hreads⟩ := replied_reads h hdev hv hmapped mem
  refine ⟨tracee', hrun, ?_⟩
  have hread : read (bytesOf tracee') n (ifr + 16) = read (v.fill myifreq 16) n 16 :=
    hreads n 0 (by omega)
  rw [word, hread]
  exact hfill myifreq

theorem replied_flags (h : AtRequest s fd th)
    (hdev : getWifiDeviceByName s.c.app.devices name = .ok (some wifi))
    (hmapped : Mapped tracee ifr 40) (mem : Memory) :
    ∃ tracee', Replied s fd th ifr name tracee mem SIOCGIFFLAGS tracee' ∧
      Reports wifi (bytesOf tracee') ifr SIOCGIFFLAGS := by
  obtain ⟨tracee', hrun, hword⟩ := replied_word (n := 2) h hdev .flags hmapped mem (by decide)
    fun _ => word_store (ifrFlags_lt _ _ _ _)
  exact ⟨tracee', hrun, .flags (hword ▸ flagsOf_ifrFlags wifi)⟩

theorem replied_mtu (h : AtRequest s fd th)
    (hdev : getWifiDeviceByName s.c.app.devices name = .ok (some wifi))
    (hmtu : wifi.getMtu < 2 ^ 16) (hmapped : Mapped tracee ifr 40) (mem : Memory) :
    ∃ tracee', Replied s fd th ifr name tracee mem SIOCGIFMTU tracee' ∧
      Reports wifi (bytesOf tracee') ifr SIOCGIFMTU := by
  obtain ⟨tracee', hrun, hword⟩ := replied_word (n := 4) h hdev .mtu hmapped mem (by decide)
    fun _ => word_store (hmtu.trans (by decide))
  exact ⟨tracee', hrun, .mtu hword⟩

/-- By the name of a device with an address all requests succeed, and all but that for the mask
report about the device (the bytes of the mask: `makeBsdMask_inet`). -/
theorem replied_request {a : InterfaceAddress} (h : AtRequest s fd th)
    (hdev : getWifiDeviceByName s.c.app.devices name = .ok (some wifi)) (htyped : wifi.Typed)
    (ha : wifi.addresses.head? = some a) (hmapped : Mapped tracee ifr 40) (mem : Memory)
    (hreq : request ∈ ifRequests) :
    ∃ tracee', Replied s fd th ifr name tracee mem request tracee' ∧
      (request ≠ SIOCGIFNETMASK → Reports wifi (bytesOf tracee') ifr request) := by
  have hmem : a ∈ wifi.addresses := List.mem_of_head? ha
  simp only [ifRequests, List.mem_cons, List.not_mem_nil, or_false] at hreq
  rcases hreq with rfl | rfl | rfl | rfl | rfl
  · obtain ⟨tracee', hrun, hreports⟩ := replied_flags h hdev hmapped mem
    exact ⟨tracee', hrun, fun _ => hreports⟩
  · obtain ⟨tracee', hrun, hinet⟩ := replied h hdev (.addr ha) hmapped mem fun _ =>
      makeBsdAddress_inet (htyped.getLocal a hmem)
    exact ⟨tracee', hrun, fun _ => .addr ha hinet⟩
  · obtain ⟨tracee', hrun, hinet⟩ := replied h hdev (.brdaddr ha) hmapped mem fun _ =>
      makeBsdAddress_inet (htyped.getBroadcast a hmem)
    exact ⟨tracee', hrun, fun _ => .brdaddr ha hinet⟩
  · obtain ⟨tracee', hrun, -⟩ := replied h hdev (.netmask ha) hmapped mem fun _ =>
      makeBsdMask_inet a.getMask
    exact ⟨tracee', hrun, fun hne => absurd rfl hne⟩
  · obtain ⟨tracee', hrun, hreports⟩ := replied_mtu h hdev htyped.getMtu hmapped mem
    exact ⟨tracee', hrun, fun _ => hreports⟩

end requests

/-! ### Names of wifi devices -/

/-- The first device of a class is the one at `i`, if none comes before it. -/
theorem find?_eq_of_take {devices : List NetDevice} {p : NetDevice → Bool} {i : ℕ}
    {dev wifi : NetDevice} (hdev : devices[i]? = some dev) (hp : p dev = true)
    (hfirst : ∀ d ∈ devices.take i, p d = false) (hwifi : devices.find? p = some wifi) :
    wifi = dev := by
  have hsplit : devices = devices.take i ++ dev :: devices.drop (i + 1) := by
    rw [← (List.getElem?_eq_some_iff.mp hdev).2, List.cons_getElem_drop_succ, List.take_append_drop]
  have hnone : (devices.take i).find? p = none := by
    rw [List.find?_eq_none]
    intro d hd
    rw [hfirst d hd]
    exact Bool.false_ne_true
  rw [hsplit, List.find?_append, hnone, Option.none_or, List.find?_cons_of_pos hp] at hwifi
  exact (Option.some.inj hwifi).symm

/-- The requests by a name that was reported for a wifi device succeed and tell the flags, the
first local and broadcast address and the MTU of the first wifi device, which is the same device if
no other one comes before it.  Without an address, three of them fail an assertion; by the name of
a loopback device all do. -/
theorem ioctl_firstWifi {s : St} {fd : Fd} {th : Tracee} (h : AtRequest s fd th)
    (htyped : ∀ d ∈ s.c.app.devices, d.Typed) {i : ℕ} {dev : NetDevice} {ifname : List Char}
    (hdev : s.c.app.devices[i]? = some dev)
    (hname : (linkNames ⟨0, 0, 0⟩ s.c.app.devices)[i]? = some ifname) {ifr : Ptr} {tracee : Space}
    (hmapped : Mapped tracee ifr 40) (mem : Memory) :
    (dev.type = .wifi →
      ∃ wifi, s.c.app.devices.find? (fun d => d.type = .wifi) = some wifi ∧
        ((∀ d ∈ s.c.app.devices.take i, d.type ≠ .wifi) → wifi = dev) ∧
        (∀ request ∈ ifRequests,
          wifi.addresses ≠ [] ∨ request = SIOCGIFFLAGS ∨ request = SIOCGIFMTU →
          ∃ tracee', Replied s fd th ifr ifname tracee mem request tracee' ∧
            (request ≠ SIOCGIFNETMASK → Reports wifi (bytesOf tracee') ifr request)) ∧
        (wifi.addresses = [] → ∀ request,
          request = SIOCGIFADDR ∨ request = SIOCGIFBRDADDR ∨ request = SIOCGIFNETMASK →
          (handleIoctl fd request (some ⟨ifr, ifname⟩)).run s = .error .assert)) ∧
    (dev.type = .loopback → ∀ request ∈ ifRequests,
      (handleIoctl fd request (some ⟨ifr, ifname⟩)).run s = .error .assert) := by
  obtain ⟨c, rfl⟩ := linkNames_get hdev hname
  constructor
  · intro htype
    obtain ⟨wifi, hwifi⟩ : ∃ wifi, s.c.app.devices.find? (fun d => d.type = .wifi) = some wifi := by
      refine Option.isSome_iff_exists.mp (List.find?_isSome.mpr ⟨dev, ?_, by simpa using htype⟩)
      exact List.mem_of_getElem? hdev
    have hbyname : getWifiDeviceByName s.c.app.devices (dev.type.ifPrefix ++ decimal c) =
        .ok (some wifi) := by
      rw [htype]
      exact getWifiDeviceByName_wlan (decimal c) hwifi
    have hwtyped := htyped wifi (List.mem_of_find?_eq_some hwifi)
    refine ⟨wifi, hwifi, fun hfirst => ?_, fun request hreq hor => ?_,
      fun ha request hreq => ioctl_noAddress h hbyname ha hreq⟩
    · exact find?_eq_of_take hdev (by simpa using htype) (fun d hd => by simpa using hfirst d hd)
        hwifi
    · rcases hor with hne | rfl | rfl
      · obtain ⟨a, as, ha⟩ := List.exists_cons_of_ne_nil hne
        have hhead : wifi.addresses.head? = some a := by rw [ha, List.head?_cons]
        exact replied_request h hbyname hwtyped hhead hmapped mem hreq
      · obtain ⟨tracee', hrun, hreports⟩ := replied_flags h hbyname hmapped mem
        exact ⟨tracee', hrun, fun _ => hreports⟩
      · obtain ⟨tracee', hrun, hreports⟩ := replied_mtu h hbyname hwtyped.getMtu hmapped mem
        exact ⟨tracee', hrun, fun _ => hreports⟩
  · intro htype request hreq
    rw [htype]
    exact ioctl_fails h hreq (getWifiDeviceByName_lo _ _)

/-- Two wifi devices, in different networks. -/
def twoWifi : List NetDevice :=
  [{ type := .wifi, addresses := [⟨0x0a000001, 0xffffff00, 0x0a0000ff, classCLength⟩] },
    { type := .wifi, addresses := [⟨0x0a000101, 0xffffff00, 0x0a0001ff, classCLength⟩] }]

theorem typed_twoWifi : ∀ d ∈ twoWifi, d.Typed := by
  intro d hd
  simp only [twoWifi, List.mem_cons, List.not_mem_nil, or_false] at hd
  rcases hd with rfl | rfl <;> exact ⟨by decide, by decide, by decide⟩

theorem ioctl_firstWifi_wlan1 :
    (∃ wifi ∈ twoWifi, ∀ request ∈ ifRequests,
      ∃ tracee', Replied (requestState twoWifi) 100 ⟨.entry, .getpid, false, 0, 0, 0⟩ 8
          ['w', 'l', 'a', 'n', '1'] zeroIfreq (fun _ => 0) request tracee' ∧
        (request ≠ SIOCGIFNETMASK → Reports wifi (bytesOf tracee') 8 request)) ∧
    ∀ request ∈ ifRequests, (handleIoctl 100 request (some ⟨8, ['l', 'o', '0']⟩)).run
      (requestState [{ type := .loopback }]) = .error .assert := by
  have hlo : ∀ d ∈ [({ type := .loopback } : NetDevice)], d.Typed := by
    intro d hd
    obtain rfl := List.mem_singleton.mp hd
    exact ⟨by decide, by decide, by decide⟩
  constructor
  · obtain ⟨wifi, hwifi, -, hreplied, -⟩ :=
      (ioctl_firstWifi (atRequest_requestState twoWifi) typed_twoWifi (i := 1) rfl rfl
        (by decide : Mapped zeroIfreq 8 40) fun _ => 0).1 rfl
    obtain rfl := Option.some.inj hwifi
    exact ⟨_, List.mem_cons_self, fun request hreq => hreplied request hreq (.inl (by decide))⟩
  · exact (ioctl_firstWifi (atRequest_requestState [{ type := .loopback }]) hlo (i := 0) rfl rfl
      (by decide : Mapped zeroIfreq 8 40) fun _ => 0).2 rfl

/-- The request for the address of the second wifi device is answered with that of the first. -/
theorem ioctl_otherDevice :
    (linkNames ⟨0, 0, 0⟩ twoWifi)[1]? = some ['w', 'l', 'a', 'n', '1'] ∧
    (∃ tracee', Replied (requestState twoWifi) 100 ⟨.entry, .getpid, false, 0, 0, 0⟩ 8
        ['w', 'l', 'a', 'n', '1'] zeroIfreq (fun _ => 0) SIOCGIFADDR tracee' ∧
      IsInet (bytesOf tracee') 24 0x0a000001) ∧
    ¬ SameDevice twoWifi := by
  obtain ⟨tracee₁, hrun₁, hinet₁⟩ := @replied (requestState twoWifi) 100 _ 8
    ['w', 'l', 'a', 'n', '1'] SIOCGIFADDR _ zeroIfreq _ 0x0a000001 (atRequest_requestState twoWifi)
    (getWifiDeviceByName_wlan ['1'] rfl) (.addr rfl) (by decide) (fun _ => 0)
    fun mem => (makeBsdAddress_inet (by decide) : IsInet (makeBsdAddress mem 16 0x0a000001) 16 _)
  refine ⟨by decide, ⟨tracee₁, hrun₁, hinet₁⟩, fun hsame => ?_⟩
  obtain ⟨tracee₂, hrun₂, hreports⟩ := hsame 1 _ _ rfl rfl (requestState twoWifi) 100 _ 8 zeroIfreq
    (fun _ => 0) rfl (atRequest_requestState twoWifi) (by decide) SIOCGIFADDR (by decide)
  obtain rfl := hrun₁.unique hrun₂
  cases hreports with
  | addr ha hinet₂ =>
      obtain rfl := Option.some.inj ha
      exact absurd (hinet₁.addr.symm.trans hinet₂.addr) (by decide)

end Grail
