import Grail.Netlink
import Grail.RouteLookup

/-! # The dump of the addresses

`RTM_GETADDR` walks over the devices and reports the first address of each one's interface.  The
routing protocol walks over the interfaces and all their addresses (`addressTable`).

Both see the same addresses exactly if every device has one address: `OneAddress` says that its
interface has exactly one and that no other interface of the device has any
(`getAddr_complete`). -/

namespace Grail

/-- The addresses of the interface of the device (`GetInterfaceForDevice`). -/
def addressesOn (ifaces : List Ipv4Interface) (k : ℕ) : List InterfaceAddress :=
  match ifaces.find? fun iface => iface.device = k with
  | none => []
  | some iface => iface.addresses

/-- The devices of the node and the interfaces of its `Ipv4`. -/
structure Configured (devices : List NetDevice) (ifaces : List Ipv4Interface) : Prop where
  device_lt : ∀ iface ∈ ifaces, iface.device < devices.length
  addresses : ∀ k dev, devices[k]? = some dev → dev.addresses = addressesOn ifaces k

/-! ### Replies -/

/-- The reply about an address. -/
def addrReply (p : ℕ × InterfaceAddress) : Reply :=
  .newAddr p.1 p.2.getPrefixLength p.2.getLocal

/-- The first address of each device that has one, with the index of the device. -/
def firstAddresses : ℕ → List NetDevice → List (ℕ × InterfaceAddress)
  | _, [] => []
  | i, dev :: devices =>
      match dev.addresses with
      | [] => firstAddresses (i + 1) devices
      | a :: _ => (i, a) :: firstAddresses (i + 1) devices

variable {devices : List NetDevice} {rs : List Reply}

theorem addrReplies_eq {i : ℕ} : addrReplies i devices = .ok rs ↔
    (∀ dev ∈ devices, dev.addresses ≠ []) ∧ rs = (firstAddresses i devices).map addrReply := by
  induction devices generalizing i rs with
  | nil => simp [addrReplies, firstAddresses, eq_comm]
  | cons dev devices ih =>
      rw [addrReplies, firstAddresses]
      cases ha : dev.addresses with
      | nil =>
          constructor
          · intro h
            cases h
          · rintro ⟨h, -⟩
            exact absurd ha (h dev List.mem_cons_self)
      | cons a as =>
          have hne : (∀ d ∈ dev :: devices, d.addresses ≠ []) ↔ ∀ d ∈ devices, d.addresses ≠ [] := by
            simp [ha]
          rw [hne]
          show (addrReplies (i + 1) devices >>= fun replies => _) = _ ↔ _
          cases hrest : addrReplies (i + 1) devices with
          | error e =>
              constructor
              · intro h
                cases h
              · rintro ⟨h, -⟩
                rw [ih.mpr ⟨h, rfl⟩] at hrest
                cases hrest
          | ok rest =>
              obtain ⟨hall, rfl⟩ := ih.mp hrest
              constructor
              · intro h
                cases h
                exact ⟨hall, rfl⟩
              · rintro ⟨-, rfl⟩
                rfl

theorem map_fst_firstAddresses {i : ℕ} (h : ∀ dev ∈ devices, dev.addresses ≠ []) :
    (firstAddresses i devices).map Prod.fst = List.range' i devices.length := by
  induction devices generalizing i with
  | nil => rfl
  | cons dev devices ih =>
      rw [firstAddresses]
      cases ha : dev.addresses with
      | nil => exact absurd ha (h dev List.mem_cons_self)
      | cons a as =>
          show i :: (firstAddresses (i + 1) devices).map Prod.fst = _
          rw [ih fun d hd => h d (List.mem_cons_of_mem dev hd)]
          rfl

theorem mem_firstAddresses {i k : ℕ} {a : InterfaceAddress} :
    (k, a) ∈ firstAddresses i devices ↔
      ∃ j dev, devices[j]? = some dev ∧ k = i + j ∧ dev.addresses.head? = some a := by
  induction devices generalizing i with
  | nil => simp [firstAddresses]
  | cons dev devices ih =>
      have hsplit : (∃ j d, (dev :: devices)[j]? = some d ∧ k = i + j ∧ d.addresses.head? = some a) ↔
          (k = i ∧ dev.addresses.head? = some a) ∨
            ∃ j d, devices[j]? = some d ∧ k = i + 1 + j ∧ d.addresses.head? = some a := by
        constructor
        · rintro ⟨j, d, hd, hk, ha⟩
          cases j with
          | zero =>
              cases hd
              exact .inl ⟨hk, ha⟩
          | succ j => exact .inr ⟨j, d, hd, by omega, ha⟩
        · rintro (⟨hk, ha⟩ | ⟨j, d, hd, hk, ha⟩)
          · exact ⟨0, dev, rfl, hk, ha⟩
          · exact ⟨j + 1, d, hd, by omega, ha⟩
      rw [hsplit, firstAddresses]
      cases ha : dev.addresses with
      | nil => simp [ih]
      | cons a' as => simp [ih, eq_comm]

/-! ### The request -/

/-- A request for the addresses queues `rs` and the end of the dump. -/
def AddrDump (devices : List NetDevice) (rs : List Reply) : Prop :=
  ∀ (nl : NlId) (s : St), s.c.app.devices = devices →
    (processNlmsghdr nl (.getAddr true)).run s =
      (notifyRecv nl).run { s with d := s.d.push nl (finalize rs) }

theorem finalize_inj {rs rs' : List Reply} (h : finalize rs = finalize rs') : rs = rs' := by
  unfold finalize at h
  split_ifs at h with h₁ h₂ h₂
  · rw [h₁, h₂]
  · simp at h
  · simp at h
  · exact List.append_cancel_right h

theorem addrDump_iff : AddrDump devices rs ↔ addrReplies 0 devices = .ok rs := by
  constructor
  · intro h
    -- no `select` is waiting in the initial state
    let s := St.initial { devices } (.script [] [])
    have hrun := h 0 s rfl
    have hidle : (notifyRecv 0).run { s with d := s.d.push 0 (finalize rs) } =
        .ok ((), { s with d := s.d.push 0 (finalize rs) }) := rfl
    rw [hidle] at hrun
    change (dumpRequest 0 true (addrReplies 0 devices)).run s = _ at hrun
    cases hr : addrReplies 0 devices with
    | error e =>
        rw [hr] at hrun
        cases hrun
    | ok rs' =>
        rw [hr] at hrun
        have hst := congrArg Prod.snd (Except.ok.inj hrun)
        have hq := congrArg (fun s : St => (s.d.nls 0).replyQueue) hst
        have hfin : finalize rs' = finalize rs := by
          simpa [Data.push, Data.setNetlink] using hq
        rw [finalize_inj hfin]
  · rintro h nl s rfl
    show (dumpRequest nl true (addrReplies 0 s.c.app.devices)).run s = _
    rw [h]
    rfl

/-! ### Both walks -/

variable {ifaces : List Ipv4Interface}

/-- The replies to a request are, one for one, the addresses that the routing protocol looks at. -/
def Corresponds (devices : List NetDevice) (ifaces : List Ipv4Interface) : Prop :=
  ∃ rs, AddrDump devices rs ∧ rs.Perm ((addressTable ifaces).map addrReply)

/-- The interface of the device has exactly one address, no other interface of it has any. -/
def OneAddress (ifaces : List Ipv4Interface) (k : ℕ) : Prop :=
  (addressesOn ifaces k).length = 1 ∧ (addressTable ifaces).countP (fun p => p.1 = k) = 1

instance (ifaces : List Ipv4Interface) (k : ℕ) : Decidable (OneAddress ifaces k) :=
  inferInstanceAs (Decidable (_ ∧ _))

/-- The number of the addresses of a device. -/
theorem count_addresses (entries : List (ℕ × InterfaceAddress)) (k : ℕ) :
    entries.countP (fun p => p.1 = k) = (entries.map Prod.fst).count k := by
  rw [List.count, List.countP_map]
  exact List.countP_congr fun p _ => by simp

theorem addressesOn_sublist (k : ℕ) :
    ((addressesOn ifaces k).map fun a => (k, a)).Sublist (addressTable ifaces) := by
  unfold addressesOn
  cases hf : ifaces.find? fun iface => iface.device = k with
  | none => exact List.nil_sublist _
  | some iface =>
      have hdev : iface.device = k := of_decide_eq_true (List.find?_some hf :)
      have hmem := List.mem_of_find?_eq_some hf
      subst hdev
      exact List.sublist_flatten_of_mem (List.mem_map_of_mem hmem)

theorem device_of_mem_addressTable {k : ℕ} {a : InterfaceAddress}
    (h : (k, a) ∈ addressTable ifaces) : ∃ iface ∈ ifaces, iface.device = k := by
  obtain ⟨iface, hiface, hmem⟩ := List.mem_flatMap.mp h
  obtain ⟨a', -, he⟩ := List.mem_map.mp hmem
  exact ⟨iface, hiface, congrArg Prod.fst he⟩

/-- The number of replies about a device. -/
def repliesAbout (k : ℕ) (r : Reply) : Bool :=
  match r with
  | .newAddr ifa_index _ _ => decide (ifa_index = k)
  | _ => false

theorem countP_addrReply (entries : List (ℕ × InterfaceAddress)) (k : ℕ) :
    (entries.map addrReply).countP (repliesAbout k) = entries.countP (fun p => p.1 = k) := by
  rw [List.countP_map]
  rfl

/-- If every device has one address, the two walks see the same addresses. -/
theorem firstAddresses_perm (hc : Configured devices ifaces)
    (h : ∀ k < devices.length, OneAddress ifaces k) :
    (firstAddresses 0 devices).Perm (addressTable ifaces) := by
  have hone : ∀ (k : ℕ) (dev : NetDevice), devices[k]? = some dev → ∃ a, dev.addresses = [a] := by
    intro k dev hdev
    have hk := (List.getElem?_eq_some_iff.mp hdev).1
    rw [hc.addresses k dev hdev]
    exact List.length_eq_one_iff.mp (h k hk).1
  have hne : ∀ dev ∈ devices, dev.addresses ≠ [] := by
    intro dev hmem
    obtain ⟨k, hk⟩ := List.mem_iff_getElem?.mp hmem
    obtain ⟨a, ha⟩ := hone k dev hk
    rw [ha]
    exact List.cons_ne_nil a []
  have hnodup : ((addressTable ifaces).map Prod.fst).Nodup := by
    refine List.nodup_iff_count_le_one.mpr fun k => ?_
    rw [← count_addresses]
    by_cases hk : k < devices.length
    · exact (h k hk).2.le
    · refine (List.countP_eq_zero.mpr fun p hp => ?_).le.trans (Nat.zero_le 1)
      obtain ⟨iface, hiface, hdev⟩ := device_of_mem_addressTable hp
      have hlt := hc.device_lt iface hiface
      simp only [decide_eq_true_eq]
      omega
  have hfirst : ((firstAddresses 0 devices).map Prod.fst).Nodup := by
    rw [map_fst_firstAddresses hne]
    exact List.nodup_range'
  have hsub : ∀ p ∈ firstAddresses 0 devices, p ∈ addressTable ifaces := by
    rintro ⟨k, a⟩ hp
    obtain ⟨j, dev, hdev, rfl, ha⟩ := mem_firstAddresses.mp hp
    rw [Nat.zero_add]
    refine addressesOn_sublist j |>.subset (List.mem_map_of_mem ?_)
    rw [← hc.addresses j dev hdev]
    exact List.mem_of_mem_head? ha
  refine (List.perm_ext_iff_of_nodup (hfirst.of_map _) (hnodup.of_map _)).mpr fun p => ⟨hsub p, ?_⟩
  obtain ⟨k, a⟩ := p
  intro hp
  obtain ⟨iface, hiface, hdevice⟩ := device_of_mem_addressTable hp
  have hk : k < devices.length := hdevice ▸ hc.device_lt iface hiface
  obtain ⟨a', ha'⟩ := hone k _ (List.getElem?_eq_getElem hk)
  have hfst : (k, a') ∈ firstAddresses 0 devices :=
    mem_firstAddresses.mpr ⟨k, _, List.getElem?_eq_getElem hk, (Nat.zero_add k).symm, by rw [ha']; rfl⟩
  have heq := List.inj_on_of_nodup_map hnodup (hsub _ hfst) hp rfl
  rwa [← heq]

/-- The replies are the addresses that the routing protocol looks at exactly if every device has
one address. -/
theorem getAddr_complete (hc : Configured devices ifaces) :
    Corresponds devices ifaces ↔ ∀ k < devices.length, OneAddress ifaces k := by
  constructor
  · rintro ⟨rs, hdump, hperm⟩ k hk
    obtain ⟨hne, rfl⟩ := addrReplies_eq.mp (addrDump_iff.mp hdump)
    have htable : (addressTable ifaces).countP (fun p => p.1 = k) = 1 := by
      rw [← countP_addrReply, ← hperm.countP_eq, countP_addrReply, count_addresses,
        map_fst_firstAddresses hne, List.count_range', if_pos ⟨k, hk, by omega⟩]
    have hdev : devices[k]? = some devices[k] := List.getElem?_eq_getElem hk
    have hpos := List.length_pos_iff.mpr (hne _ (List.getElem_mem hk))
    rw [hc.addresses k _ hdev] at hpos
    have hle := (@addressesOn_sublist ifaces k).countP_le (p := fun p => p.1 = k)
    rw [List.countP_map, htable, List.countP_eq_length.mpr (by simp)] at hle
    exact ⟨by omega, htable⟩
  · intro h
    have hne : ∀ dev ∈ devices, dev.addresses ≠ [] := by
      intro dev hmem
      obtain ⟨k, hk⟩ := List.mem_iff_getElem?.mp hmem
      have hone := (h k (List.getElem?_eq_some_iff.mp hk).1).1
      rw [← hc.addresses k dev hk] at hone
      exact List.ne_nil_of_length_pos (by omega)
    exact ⟨_, addrDump_iff.mpr (addrReplies_eq.mpr ⟨hne, rfl⟩), (firstAddresses_perm hc h).map _⟩

/-- The addresses of a host in two networks. -/
def twoAddresses : List InterfaceAddress :=
  [⟨0x0a000001, 0xffffff00, 0x0a0000ff, classCLength⟩,
    ⟨0xc0a80001, 0xffffff00, 0xc0a800ff, classCLength⟩]

theorem getAddr_complete_two :
    Corresponds [{ type := .loopback, addresses := [⟨0x7f000001, 0xff000000, 0x7fffffff, 8⟩] },
      { type := .wifi, addresses := [⟨0x0a000001, 0xffffff00, 0x0a0000ff, classCLength⟩] }]
      [⟨1, [⟨0x0a000001, 0xffffff00, 0x0a0000ff, classCLength⟩]⟩,
        ⟨0, [⟨0x7f000001, 0xff000000, 0x7fffffff, 8⟩]⟩] := by
  refine (getAddr_complete ⟨by decide, ?_⟩).mpr (by decide)
  intro k dev hdev
  match k with
  | 0 =>
      cases hdev
      rfl
  | 1 =>
      cases hdev
      rfl
  | k + 2 => cases hdev

/-- The second address of an interface is missing, and a device without an address makes the
request fail. -/
theorem getAddr_incomplete :
    (let devices : List NetDevice := [{ type := .wifi, addresses := twoAddresses }]
     let ifaces : List Ipv4Interface := [⟨0, twoAddresses⟩]
     Configured devices ifaces ∧ addrReplies 0 devices = .ok [.newAddr 0 24 0x0a000001] ∧
       addressTable ifaces = twoAddresses.map (0, ·) ∧ ¬ Corresponds devices ifaces) ∧
    (let devices : List NetDevice := [{ type := .wifi }]
     Configured devices [⟨0, []⟩] ∧ addrReplies 0 devices = .error .assert ∧
       ¬ Corresponds devices [⟨0, []⟩]) := by
  have hconf : ∀ addresses : List InterfaceAddress,
      Configured [{ type := .wifi, addresses }] [⟨0, addresses⟩] := by
    intro addresses
    refine ⟨by simp, fun k dev hdev => ?_⟩
    cases k with
    | zero =>
        cases hdev
        rfl
    | succ k => cases hdev
  refine ⟨⟨hconf _, by decide, by decide, ?_⟩, hconf [], by decide, ?_⟩
  · rintro ⟨rs, hdump, hperm⟩
    obtain ⟨-, rfl⟩ := addrReplies_eq.mp (addrDump_iff.mp hdump)
    exact absurd hperm.length_eq (by decide)
  · rintro ⟨rs, hdump, -⟩
    exact (addrReplies_eq.mp (addrDump_iff.mp hdump)).1 _ List.mem_cons_self rfl

end Grail
