import Grail.LinkDump

/-! # Interface requests

The interface requests of `ioctl` on an emulated descriptor: which device a name stands for, and
which value each request stores about this device.  `RTM_GETLINK` counts the devices of each class
in the names that it reports; `GetNetDeviceByName` looks at the first letters of a name only and
takes the first device of the class. -/

namespace Grail

open Programs

/-- The value of a device that a request stores in the request object. -/
inductive Stores (dev : NetDevice) : ℕ → Val → Prop
  | flags : Stores dev SIOCGIFFLAGS
      (.ifFlags dev.isLinkUp dev.isBroadcast dev.isMulticast dev.isPointToPoint)
  | addr {a : InterfaceAddress} : dev.addresses.head? = some a →
      Stores dev SIOCGIFADDR (.ifAddr a.getLocal)
  | brdaddr {a : InterfaceAddress} : dev.addresses.head? = some a →
      Stores dev SIOCGIFBRDADDR (.ifAddr a.getBroadcast)
  | netmask {a : InterfaceAddress} : dev.addresses.head? = some a →
      Stores dev SIOCGIFNETMASK (.ifMask a.getMask)
  | mtu : Stores dev SIOCGIFMTU (.ifMtu dev.getMtu)

/-- The requests about flags, address, mask and MTU. -/
def ifRequests : List ℕ :=
  [SIOCGIFFLAGS, SIOCGIFADDR, SIOCGIFBRDADDR, SIOCGIFNETMASK, SIOCGIFMTU]

/-- A thread is stopped at the entry of a call on the emulated descriptor `fd`; when it is resumed
it reaches the exit of the call. -/
structure AtRequest (s : St) (fd : Fd) (th : Tracee) : Prop where
  emulated : s.d.fds.isEmulated fd = true
  thread : s.c.threads s.c.pid = some th
  phase : th.phase = .entry
  next : ∃ call retval, s.c.env.wait s.c.waits = .stopped call retval

/-- The value `v` is stored and the call is answered with 0. -/
def St.reported (s : St) (th : Tracee) (ifr : Ptr) (v : Val) : St :=
  ⟨s.c.answer s.c.pid th 0, s.d.setStores ((s.c.pid, ifr, v) :: s.d.stores)⟩

/-! ### Names -/

theorem linkNames_get {k : IfCounters} {devices : List NetDevice} {i : ℕ} {dev : NetDevice}
    {ifname : List Char} (hdev : devices[i]? = some dev)
    (hname : (linkNames k devices)[i]? = some ifname) :
    ∃ c, ifname = dev.type.ifPrefix ++ decimal c := by
  induction devices generalizing k i with
  | nil => cases hdev
  | cons d devices ih =>
      cases i with
      | zero =>
          cases hdev
          cases hname
          exact ⟨_, rfl⟩
      | succ i => exact ih hdev hname

/-- A name of a wifi device stands for the first wifi device. -/
theorem getWifiDeviceByName_wlan {devices : List NetDevice} {wifi : NetDevice} (x : List Char)
    (h : devices.find? (fun d => d.type = .wifi) = some wifi) :
    getWifiDeviceByName devices (DeviceType.wifi.ifPrefix ++ x) = .ok (some wifi) := by
  have hname : nameStartsWith ['w', 'l', 'a', 'n'] (DeviceType.wifi.ifPrefix ++ x) = true := rfl
  rw [getWifiDeviceByName, hname, if_pos rfl, h]

/-- A name of a loopback device is not supported. -/
theorem getWifiDeviceByName_lo (devices : List NetDevice) (x : List Char) :
    getWifiDeviceByName devices (DeviceType.loopback.ifPrefix ++ x) = .error .assert := rfl

/-! ### Requests -/

section requests

variable {s : St} {fd : Fd} {th : Tracee} {ifr : Ptr} {name : List Char} {request : ℕ}

theorem AtRequest.run_fake (h : AtRequest s fd th) (v : Val) :
    (memcpyToTracee s.c.pid ifr v >>= fun _ => fake 0 .success).run s =
      .ok (.success, s.reported th ifr v) := by
  obtain ⟨call, retval, hw⟩ := h.next
  have hstore : (memcpyToTracee s.c.pid ifr v >>= fun _ => fake 0 .success).run s =
      (fakeAt s.c.pid 0 .success).run
        { s with d := s.d.setStores ((s.c.pid, ifr, v) :: s.d.stores) } := by
    simp [memcpyToTracee, modifyData, fake, h.thread, Data.setStores]
  rw [hstore]
  exact run_fakeAt (s := { s with d := s.d.setStores ((s.c.pid, ifr, v) :: s.d.stores) })
    h.thread h.phase hw

theorem run_withWifiDevice {wifi : NetDevice} {noDevice : M SyscallHandlerStatusCode}
    {body : Ptr → NetDevice → M SyscallHandlerStatusCode}
    (h : getWifiDeviceByName s.c.app.devices name = .ok (some wifi)) :
    (withWifiDevice (some ⟨ifr, name⟩) noDevice body).run s = (body ifr wifi).run s := by
  simp only [withWifiDevice, StateT.run_bind, StateT.run_get, pure_bind, h]

theorem run_withWifiDevice_error {noDevice : M SyscallHandlerStatusCode}
    {body : Ptr → NetDevice → M SyscallHandlerStatusCode} {e : Crash}
    (h : getWifiDeviceByName s.c.app.devices name = .error e) :
    (withWifiDevice (some ⟨ifr, name⟩) noDevice body).run s = .error e := by
  simp only [withWifiDevice, StateT.run_bind, StateT.run_get, pure_bind, h]
  rfl

theorem run_firstAddress {dev : NetDevice} {a : InterfaceAddress}
    {f : InterfaceAddress → M SyscallHandlerStatusCode} (h : dev.addresses.head? = some a) :
    (firstAddress dev >>= f).run s = (f a).run s := by
  unfold firstAddress
  cases ha : dev.addresses with
  | nil =>
      rw [ha] at h
      cases h
  | cons a' as =>
      rw [ha] at h
      cases h
      rfl

theorem run_firstAddress_none {dev : NetDevice}
    {f : InterfaceAddress → M SyscallHandlerStatusCode} (h : dev.addresses = []) :
    (firstAddress dev >>= f).run s = .error .assert := by
  unfold firstAddress
  rw [h]
  rfl

/-- The request that is left when the descriptor is emulated. -/
theorem run_handleIoctl (h : AtRequest s fd th) (hreq : request ∈ ifRequests) (ifreq : Option Ifreq) :
    (handleIoctl fd request ifreq).run s =
      (if request = SIOCGIFFLAGS then
        withWifiDevice ifreq (fake (-1) .failure) fun ifr wifi => do
          memcpyToTracee s.c.pid ifr
            (.ifFlags wifi.isLinkUp wifi.isBroadcast wifi.isMulticast wifi.isPointToPoint)
          fake 0 .success
      else if request = SIOCGIFADDR ∨ request = SIOCGIFBRDADDR then
        withWifiDevice ifreq (fake (-1) .failure) fun ifr wifi => do
          let iaddr ← firstAddress wifi
          memcpyToTracee s.c.pid ifr
            (.ifAddr (if request = SIOCGIFADDR then iaddr.getLocal else iaddr.getBroadcast))
          fake 0 .success
      else if request = SIOCGIFNETMASK then
        withWifiDevice ifreq (fake (-1) .failure) fun ifr wifi => do
          let iaddr ← firstAddress wifi
          memcpyToTracee s.c.pid ifr (.ifMask iaddr.getMask)
          fake 0 .success
      else
        withWifiDevice ifreq (fake (-1) .failure) fun ifr wifi => do
          memcpyToTracee s.c.pid ifr (.ifMtu wifi.getMtu)
          fake 0 .success).run s := by
  simp only [ifRequests, List.mem_cons, List.not_mem_nil, or_false] at hreq
  rcases hreq with rfl | rfl | rfl | rfl | rfl <;>
    simp [handleIoctl, h.emulated, SIOCGIFFLAGS, SIOCGIFADDR, SIOCGIFBRDADDR, SIOCGIFNETMASK,
      SIOCGIFMTU, SIOCGIWNAME, TCGETS]

/-- A request by a name that stands for `wifi` stores its value. -/
theorem ioctl_stores {wifi : NetDevice} {v : Val} (h : AtRequest s fd th)
    (hdev : getWifiDeviceByName s.c.app.devices name = .ok (some wifi))
    (hv : Stores wifi request v) :
    (handleIoctl fd request (some ⟨ifr, name⟩)).run s = .ok (.success, s.reported th ifr v) := by
  cases hv with
  | flags =>
      rw [run_handleIoctl h (by decide), if_pos rfl, run_withWifiDevice hdev, h.run_fake]
  | addr ha =>
      rw [run_handleIoctl h (by decide), if_neg (by decide), if_pos (.inl rfl),
        run_withWifiDevice hdev, run_firstAddress ha, if_pos rfl, h.run_fake]
  | brdaddr ha =>
      rw [run_handleIoctl h (by decide), if_neg (by decide), if_pos (.inr rfl),
        run_withWifiDevice hdev, run_firstAddress ha, if_neg (by decide), h.run_fake]
  | netmask ha =>
      rw [run_handleIoctl h (by decide), if_neg (by decide), if_neg (by decide), if_pos rfl,
        run_withWifiDevice hdev, run_firstAddress ha, h.run_fake]
  | mtu =>
      rw [run_handleIoctl h (by decide), if_neg (by decide), if_neg (by decide),
        if_neg (by decide), run_withWifiDevice hdev, h.run_fake]

theorem ioctl_fails {e : Crash} (h : AtRequest s fd th) (hreq : request ∈ ifRequests)
    (hdev : getWifiDeviceByName s.c.app.devices name = .error e) :
    (handleIoctl fd request (some ⟨ifr, name⟩)).run s = .error e := by
  rw [run_handleIoctl h hreq]
  split_ifs <;> exact run_withWifiDevice_error hdev

/-- `GetAddress` asserts that there is an address. -/
theorem ioctl_noAddress {wifi : NetDevice} (h : AtRequest s fd th)
    (hdev : getWifiDeviceByName s.c.app.devices name = .ok (some wifi))
    (ha : wifi.addresses = [])
    (hreq : request = SIOCGIFADDR ∨ request = SIOCGIFBRDADDR ∨ request = SIOCGIFNETMASK) :
    (handleIoctl fd request (some ⟨ifr, name⟩)).run s = .error .assert := by
  rcases hreq with rfl | rfl | rfl
  · rw [run_handleIoctl h (by decide), if_neg (by decide), if_pos (.inl rfl),
      run_withWifiDevice hdev, run_firstAddress_none ha]
  · rw [run_handleIoctl h (by decide), if_neg (by decide), if_pos (.inr rfl),
      run_withWifiDevice hdev, run_firstAddress_none ha]
  · rw [run_handleIoctl h (by decide), if_neg (by decide), if_neg (by decide), if_pos rfl,
      run_withWifiDevice hdev, run_firstAddress_none ha]

end requests

/-- A thread is about to make a request on the socket 100. -/
def requestState (devices : List NetDevice) : St :=
  let s := St.initial { devices, appPid_pos := Int.one_pos } (.script [.exit 0] [])
  ⟨{ s.c with threads := fun p => if p = 1 then some ⟨.entry, .getpid, false, 0, 0, 0⟩ else none },
    s.d.withFds (Fds.initial.addSocket 100 0)⟩

theorem atRequest_requestState (devices : List NetDevice) :
    AtRequest (requestState devices) 100 ⟨.entry, .getpid, false, 0, 0, 0⟩ where
  emulated := by
    show (Fds.initial.addSocket 100 0).isEmulated 100 = true
    decide
  thread := rfl
  phase := rfl
  next := ⟨_, _, rfl⟩

end Grail
