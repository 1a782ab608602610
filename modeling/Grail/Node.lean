import Grail.Syscall

/-! # The simulated node

The part of an ns-3 node that the handlers read: its devices with their flags and addresses,
and the lookup of a device by interface name (`GetNetDeviceByName`). -/

namespace Grail

/-- The device classes the emulator distinguishes. -/
inductive DeviceType where
  | loopback
  | wifi
  | pointToPoint
  | other
deriving DecidableEq, Repr

/-- `Ipv4InterfaceAddress`.  `GetPrefixLength` of its mask is code of ns-3; nothing but its range
is used. -/
structure InterfaceAddress where
  getLocal : ℕ
  getMask : ℕ
  getBroadcast : ℕ
  getPrefixLength : Fin 33
deriving DecidableEq, Repr

/-- The prefix length of 255.255.255.0. -/
def classCLength : Fin 33 := 24

structure NetDevice where
  type : DeviceType
  isLinkUp : Bool := true
  isBroadcast : Bool := true
  isMulticast : Bool := true
  isPointToPoint : Bool := false
  getMtu : ℕ := 1500
  /-- the addresses of the device's interface, by address index -/
  addresses : List InterfaceAddress := []
deriving DecidableEq, Repr

/-- The interface names that start with `p` (`std::regex_search` of `^p`). -/
def nameStartsWith (p ifname : List Char) : Bool := p.isPrefixOf ifname

/-- The result of `GetNetDeviceByName(ifname)->GetObject<WifiNetDevice>()`: the first device of
the class that the name stands for, if it is a wifi device.  Without any device of that class
a null pointer is dereferenced, and other names fail an assertion. -/
def getWifiDeviceByName (devices : List NetDevice) (ifname : List Char) :
    Except Crash (Option NetDevice) :=
  if nameStartsWith ['w', 'l', 'a', 'n'] ifname then
    match devices.find? (fun d => d.type = .wifi) with
    | some d => .ok (some d)
    | none => .error .nullPtr
  else if nameStartsWith ['e', 't', 'h'] ifname then
    match devices.find? (fun d => d.type = .pointToPoint) with
    | some _ => .ok none
    | none => .error .nullPtr
  else .error .assert

/-- The attributes of the application and the node it runs on. -/
structure App where
  mayQuit : Bool := false
  printStdout : Bool := false
  pollLoopDetection : Bool := true
  /-- `SyscallProcessingTime`, in nanoseconds -/
  syscallProcessingTime : ℕ := 0
  devices : List NetDevice := []
  appPid : Pid := 1
  appPid_pos : 0 < appPid := by decide
  fakePid : ℤ := 1
  uid : ℤ := 0
  euid : ℤ := 0
  gid : ℤ := 0
  egid : ℤ := 0
  /-- the time at which the application starts -/
  startTime : ℕ := 0
deriving DecidableEq, Repr

end Grail
