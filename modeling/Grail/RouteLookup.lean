import Grail.FirstMax
import Grail.Node
import Grail.Route

/-! # Looking up a route

`HgRoutingProtocol::RouteOutput` and `RouteInput`: a scan of the routing table for the entry with
the longest prefix that matches, then a scan of the interfaces for an address in whose subnet the
gateway lies.

The first scan finds the first of the longest matches (`Selects`), the second the first address in
the table of all addresses (`FirstOnLink`), which together make the route (`routeOutput_longest`).
`RouteInput` does the same, but asserts that the second scan succeeds; so the two agree where the
selected gateway is on-link (`routeInput_agrees`). -/

namespace Grail

open FirstMax

/-! ### Masks -/

/-- `Ipv4Mask("/n")`, which asserts that `n` is at most 32. -/
def ipv4Mask (n : ℕ) : Except Crash ℕ :=
  if n ≤ 32 then .ok (2 ^ 32 - 2 ^ (32 - n)) else .error .assert

/-- `Ipv4Mask::IsMatch`. -/
def isMatch (mask a b : ℕ) : Bool := a &&& mask = b &&& mask

/-- `if_addr.GetMask().IsMatch(if_addr.GetLocal(), gw)`. -/
def InterfaceAddress.hasInSubnet (a : InterfaceAddress) (gw : ℕ) : Bool :=
  isMatch a.getMask a.getLocal gw

/-! ### The lookup -/

/-- An interface of the node's `Ipv4`: its device, by index, and its addresses. -/
structure Ipv4Interface where
  device : ℕ
  addresses : List InterfaceAddress
deriving DecidableEq, Repr

structure Ipv4Route where
  destination : ℕ
  gateway : ℕ
  source : ℕ
  outputDevice : ℕ
deriving DecidableEq, Repr

/-- The variables of the first loop; `bestLen` is -1 as long as there is no route. -/
structure BestRoute where
  bestLen : ℤ
  finalRt : RtEntry
deriving DecidableEq, Repr

def bestRouteStep (dst : ℕ) (v : BestRoute) (rt : RtEntry) : Except Crash BestRoute := do
  let mask ← ipv4Mask rt.len
  if isMatch mask rt.dst dst then
    if (rt.len : ℤ) > v.bestLen then return ⟨rt.len, rt⟩ else return v
  else return v

/-- The loop over `m_entries`. -/
def bestRoute (entries : List RtEntry) (dst : ℕ) : Except Crash BestRoute :=
  entries.foldlM (bestRouteStep dst) ⟨-1, ⟨0, 0, 0⟩⟩

/-- The two loops over the interfaces and their addresses, which end at the first match. -/
def findGateway (gw : ℕ) : List Ipv4Interface → Option (ℕ × InterfaceAddress)
  | [] => none
  | iface :: ifaces =>
      match iface.addresses.find? (·.hasInSubnet gw) with
      | some if_addr => some (iface.device, if_addr)
      | none => findGateway gw ifaces

def createRoute (dst gw : ℕ) (found : ℕ × InterfaceAddress) : Ipv4Route where
  destination := dst
  gateway := gw
  source := found.2.getLocal
  outputDevice := found.1

def routeOutput (entries : List RtEntry) (ifaces : List Ipv4Interface) (dst : ℕ) :
    Except Crash (Option Ipv4Route) := do
  let v ← bestRoute entries dst
  if v.bestLen ≥ 0 then
    return (findGateway v.finalRt.gw ifaces).map (createRoute dst v.finalRt.gw)
  else return none

/-- What `RouteInput` does: `lcb` is called with an interface, or `ucb` with a route. -/
structure RouteInputResult where
  lcb : Option ℕ
  ucb : Option Ipv4Route
  returned : Bool
deriving DecidableEq, Repr

/-- `GetInterfaceForDevice`. -/
def getInterfaceForDevice (ifaces : List Ipv4Interface) (device : ℕ) : Option ℕ :=
  ifaces.findIdx? fun iface => iface.device = device

/-- `RouteInput` on the device `idev`; `isDestinationAddress` is the function of ns-3. -/
def routeInput (isDestinationAddress : ℕ → ℕ → Bool) (lcbIsNull : Bool) (entries : List RtEntry)
    (ifaces : List Ipv4Interface) (idev dst : ℕ) : Except Crash RouteInputResult := do
  match getInterfaceForDevice ifaces idev with
  | none => throw .assert
  | some iif =>
      if isDestinationAddress dst iif then
        if !lcbIsNull then return ⟨some iif, none, true⟩ else return ⟨none, none, false⟩
      else do
        let v ← bestRoute entries dst
        if v.bestLen ≥ 0 then
          match findGateway v.finalRt.gw ifaces with
          | some found => return ⟨none, some (createRoute dst v.finalRt.gw found), true⟩
          -- "inconsistent RtEntry, cannot find interface for gw"
          | none => throw .assert
        else return ⟨none, none, false⟩

/-! ### The first loop -/

/-- The entry covers the destination. -/
def RtEntry.Matches (d : ℕ) (e : RtEntry) : Prop :=
  isMatch (2 ^ 32 - 2 ^ (32 - e.len)) e.dst d = true

instance (d : ℕ) (e : RtEntry) : Decidable (e.Matches d) :=
  inferInstanceAs (Decidable (isMatch (2 ^ 32 - 2 ^ (32 - e.len)) e.dst d = true))

/-- The entry with the longest prefix among those that cover `d`, the first one of these. -/
abbrev Selects (entries : List RtEntry) (d : ℕ) (e : RtEntry) : Prop :=
  IsFirstMax (RtEntry.Matches d) RtEntry.len entries e

/-- The variables after the loop. -/
inductive Found (entries : List RtEntry) (d : ℕ) : BestRoute → Prop
  | route {e : RtEntry} : Selects entries d e → Found entries d ⟨e.len, e⟩
  | noRoute {rt : RtEntry} : (∀ e ∈ entries, ¬ e.Matches d) → Found entries d ⟨-1, rt⟩

variable {entries : List RtEntry} {d : ℕ} {v : BestRoute}

theorem bestRouteStep_eq {rt : RtEntry} (h : rt.len ≤ 32) :
    bestRouteStep d v rt = .ok (if rt.Matches d ∧ v.bestLen < rt.len then ⟨rt.len, rt⟩ else v) := by
  unfold bestRouteStep ipv4Mask
  rw [if_pos h]
  show (if rt.Matches d then if v.bestLen < rt.len then Except.ok ⟨rt.len, rt⟩ else Except.ok v
    else Except.ok v) = _
  rw [ite_and]
  split_ifs <;> rfl

theorem Found.step (h : Found entries d v) (rt : RtEntry) : Found (entries ++ [rt]) d
    (if rt.Matches d ∧ v.bestLen < rt.len then ⟨rt.len, rt⟩ else v) := by
  cases h with
  | @route e he =>
      split_ifs with hc
      · obtain ⟨hm, hlt⟩ := hc
        have hlt : e.len < rt.len := by simpa using hlt
        exact .route (concat_new hm fun y hy hpy => (he.le hy hpy).trans_lt hlt)
      · refine .route (he.concat_old fun hm => ?_)
        have hle : ¬ ((e.len : ℤ) < rt.len) := fun hlt => hc ⟨hm, hlt⟩
        omega
  | @noRoute rt' hno =>
      split_ifs with hc
      · exact .route (concat_new hc.1 fun y hy hpy => absurd hpy (hno y hy))
      · refine .noRoute fun e he => ?_
        rcases List.mem_append.mp he with he | he
        · exact hno e he
        · obtain rfl := List.mem_singleton.mp he
          intro hm
          exact hc ⟨hm, by simp only; omega⟩

/-- The loop finds the first of the longest matches. -/
theorem bestRoute_found (h : ∀ e ∈ entries, e.len ≤ 32) (d : ℕ) :
    ∃ v, bestRoute entries d = .ok v ∧ Found entries d v := by
  unfold bestRoute
  induction entries using List.reverseRecOn with
  | nil => exact ⟨_, rfl, .noRoute fun e he => absurd he List.not_mem_nil⟩
  | append_singleton entries rt ih =>
      obtain ⟨v, hv, hf⟩ := ih fun e he => h e (List.mem_append_left _ he)
      have hrt := h rt (List.mem_append_right _ List.mem_cons_self)
      refine ⟨_, ?_, hf.step rt⟩
      rw [List.foldlM_append, hv]
      exact (bind_pure _).trans (bestRouteStep_eq hrt)

/-! ### The second loop -/

/-- All addresses with the devices of their interfaces, in the order of the loops. -/
def addressTable (ifaces : List Ipv4Interface) : List (ℕ × InterfaceAddress) :=
  ifaces.flatMap fun iface => iface.addresses.map fun a => (iface.device, a)

/-- The gateway is in the subnet of an address. -/
def OnLink (ifaces : List Ipv4Interface) (gw : ℕ) : Prop :=
  ∃ found ∈ addressTable ifaces, found.2.hasInSubnet gw = true

/-- It is in the subnet of this address, and of no address before it. -/
def FirstOnLink (ifaces : List Ipv4Interface) (gw : ℕ) (found : ℕ × InterfaceAddress) : Prop :=
  found.2.hasInSubnet gw = true ∧ ∃ before after, addressTable ifaces = before ++ found :: after ∧
    ∀ x ∈ before, x.2.hasInSubnet gw = false

variable {ifaces : List Ipv4Interface} {gw : ℕ}

theorem findGateway_eq (gw : ℕ) (ifaces : List Ipv4Interface) :
    findGateway gw ifaces = (addressTable ifaces).find? fun found => found.2.hasInSubnet gw := by
  induction ifaces with
  | nil => rfl
  | cons iface ifaces ih =>
      have hhead : (iface.addresses.map fun a => (iface.device, a)).find?
          (fun found => found.2.hasInSubnet gw) =
            (iface.addresses.find? (·.hasInSubnet gw)).map fun a => (iface.device, a) :=
        List.find?_map ..
      rw [findGateway, addressTable, List.flatMap_cons, List.find?_append, hhead]
      cases iface.addresses.find? (·.hasInSubnet gw) with
      | some a => rfl
      | none => exact ih

theorem findGateway_some {found : ℕ × InterfaceAddress} :
    findGateway gw ifaces = some found ↔ FirstOnLink ifaces gw found := by
  rw [findGateway_eq, List.find?_eq_some_iff_append]
  simp only [FirstOnLink, Bool.not_eq_eq_eq_not, Bool.not_true]

theorem findGateway_isSome : (∃ found, findGateway gw ifaces = some found) ↔ OnLink ifaces gw := by
  rw [findGateway_eq, ← Option.isSome_iff_exists, List.find?_isSome]
  rfl

/-! ### The route -/

theorem routeOutput_of_best (hv : bestRoute entries d = .ok v) : routeOutput entries ifaces d =
    if v.bestLen ≥ 0 then .ok ((findGateway v.finalRt.gw ifaces).map (createRoute d v.finalRt.gw))
    else .ok none := by
  unfold routeOutput
  rw [hv]
  rfl

theorem bestRoute_route (h : ∀ e ∈ entries, e.len ≤ 32) {e : RtEntry} (he : Selects entries d e) :
    bestRoute entries d = .ok ⟨e.len, e⟩ := by
  obtain ⟨v, hv, hf⟩ := bestRoute_found h d
  cases hf with
  | route he' =>
      obtain rfl := he.unique he'
      exact hv
  | noRoute hno => exact absurd he.holds (hno e he.mem)

theorem bestRoute_noRoute (h : ∀ e ∈ entries, e.len ≤ 32) (hno : ∀ e ∈ entries, ¬ e.Matches d) :
    ∃ rt, bestRoute entries d = .ok ⟨-1, rt⟩ := by
  obtain ⟨v, hv, hf⟩ := bestRoute_found h d
  cases hf with
  | route he => exact absurd he.holds (hno _ he.mem)
  | noRoute => exact ⟨_, hv⟩

theorem routeOutput_route (h : ∀ e ∈ entries, e.len ≤ 32) {e : RtEntry} (he : Selects entries d e) :
    routeOutput entries ifaces d = .ok ((findGateway e.gw ifaces).map (createRoute d e.gw)) := by
  rw [routeOutput_of_best (bestRoute_route h he), if_pos (Int.natCast_nonneg e.len)]

theorem routeOutput_noRoute (h : ∀ e ∈ entries, e.len ≤ 32) (hno : ∀ e ∈ entries, ¬ e.Matches d) :
    routeOutput entries ifaces d = .ok none := by
  obtain ⟨rt, hv⟩ := bestRoute_noRoute h hno
  rw [routeOutput_of_best hv]
  rfl

/-- There is a route if the gateway of the longest match is on-link; the route leads over this
gateway and leaves by the first address in whose subnet the gateway is. -/
theorem routeOutput_longest (h : ∀ e ∈ entries, e.len ≤ 32) (ifaces : List Ipv4Interface) (d : ℕ) :
    ∃ route, routeOutput entries ifaces d = .ok route ∧
      (route.isSome = true ↔ ∃ e, Selects entries d e ∧ OnLink ifaces e.gw) ∧
      ∀ r, route = some r → ∃ e found, Selects entries d e ∧ FirstOnLink ifaces e.gw found ∧
        r = ⟨d, e.gw, found.2.getLocal, found.1⟩ := by
  rcases exists_isFirstMax (RtEntry.Matches d) RtEntry.len entries with ⟨e, he⟩ | hno
  · refine ⟨_, routeOutput_route h he, ?_, ?_⟩
    · rw [Option.isSome_map, Option.isSome_iff_exists, findGateway_isSome]
      constructor
      · exact fun hon => ⟨e, he, hon⟩
      · rintro ⟨e', he', hon⟩
        rwa [he.unique he']
    · intro r hr
      obtain ⟨found, hfound, rfl⟩ := Option.map_eq_some_iff.mp hr
      exact ⟨e, found, he, findGateway_some.mp hfound, rfl⟩
  · refine ⟨_, routeOutput_noRoute h hno, ?_, fun r hr => nomatch hr⟩
    constructor
    · exact fun hr => nomatch hr
    · rintro ⟨e, he, -⟩
      exact absurd he.holds (hno e he.mem)

/-- The longest match for 10.1.2.3 is the second entry; its gateway is on the second interface. -/
theorem routeOutput_longest_overlapping :
    let entries : List RtEntry := [⟨0, 0, 0x0a000001⟩, ⟨0x0a010000, 16, 0x0a000102⟩,
      ⟨0x0a000000, 8, 0x0a000003⟩]
    let ifaces : List Ipv4Interface := [⟨1, [⟨0x7f000001, 0xff000000, 0x7fffffff, 8⟩]⟩,
      ⟨0, [⟨0x0a000005, 0xffffff00, 0x0a0000ff, classCLength⟩,
        ⟨0x0a000105, 0xffffff00, 0x0a0001ff, classCLength⟩]⟩]
    ∃ route, routeOutput entries ifaces 0x0a010203 = .ok route ∧
      (route.isSome = true ↔ ∃ e, Selects entries 0x0a010203 e ∧ OnLink ifaces e.gw) ∧
      ∀ r, route = some r → ∃ e found, Selects entries 0x0a010203 e ∧
        FirstOnLink ifaces e.gw found ∧ r = ⟨0x0a010203, e.gw, found.2.getLocal, found.1⟩ :=
  routeOutput_longest (by decide) _ _

/-! ### `RouteInput` -/

/-- `RouteInput` forwards over the route that `RouteOutput` returns, refuses if there is none, and
neither aborts. -/
structure Agrees (input : Except Crash RouteInputResult) (output : Except Crash (Option Ipv4Route)) :
    Prop where
  forwards : ∀ r, input = .ok ⟨none, some r, true⟩ ↔ output = .ok (some r)
  refuses : input = .ok ⟨none, none, false⟩ ↔ output = .ok none
  returns : (∃ result, input = .ok result) ∧ ∃ route, output = .ok route

section RouteInput

variable {isDestinationAddress : ℕ → ℕ → Bool} {lcbIsNull : Bool} {idev iif : ℕ}

/-- A packet that is not for the receiving interface. -/
structure Forwarded (isDestinationAddress : ℕ → ℕ → Bool) (ifaces : List Ipv4Interface)
    (idev d iif : ℕ) : Prop where
  iface : getInterfaceForDevice ifaces idev = some iif
  remote : isDestinationAddress d iif = false

theorem routeInput_of_best (hf : Forwarded isDestinationAddress ifaces idev d iif)
    (hv : bestRoute entries d = .ok v) :
    routeInput isDestinationAddress lcbIsNull entries ifaces idev d =
      if v.bestLen ≥ 0 then
        match findGateway v.finalRt.gw ifaces with
        | some found => .ok ⟨none, some (createRoute d v.finalRt.gw found), true⟩
        | none => .error .assert
      else .ok ⟨none, none, false⟩ := by
  unfold routeInput
  rw [hf.iface]
  simp only [hf.remote, hv]
  rfl

theorem routeInput_route (h : ∀ e ∈ entries, e.len ≤ 32) {e : RtEntry} (he : Selects entries d e)
    (hf : Forwarded isDestinationAddress ifaces idev d iif) :
    routeInput isDestinationAddress lcbIsNull entries ifaces idev d =
      match findGateway e.gw ifaces with
      | some found => .ok ⟨none, some (createRoute d e.gw found), true⟩
      | none => .error .assert := by
  rw [routeInput_of_best hf (bestRoute_route h he), if_pos (Int.natCast_nonneg e.len)]

theorem routeInput_noRoute (h : ∀ e ∈ entries, e.len ≤ 32) (hno : ∀ e ∈ entries, ¬ e.Matches d)
    (hf : Forwarded isDestinationAddress ifaces idev d iif) :
    routeInput isDestinationAddress lcbIsNull entries ifaces idev d = .ok ⟨none, none, false⟩ := by
  obtain ⟨rt, hv⟩ := bestRoute_noRoute h hno
  rw [routeInput_of_best hf hv]
  rfl

theorem agrees_route (r : Ipv4Route) : Agrees (.ok ⟨none, some r, true⟩) (.ok (some r)) where
  forwards r' := by simp
  refuses := by simp
  returns := ⟨⟨_, rfl⟩, _, rfl⟩

theorem agrees_noRoute : Agrees (.ok ⟨none, none, false⟩) (.ok none) where
  forwards r' := by simp
  refuses := by simp
  returns := ⟨⟨_, rfl⟩, _, rfl⟩

/-- `RouteInput` and `RouteOutput` agree about a packet to be forwarded exactly if the gateway of
the longest match, if there is one, is on-link. -/
theorem routeInput_agrees (h : ∀ e ∈ entries, e.len ≤ 32)
    (hf : Forwarded isDestinationAddress ifaces idev d iif) :
    Agrees (routeInput isDestinationAddress lcbIsNull entries ifaces idev d)
      (routeOutput entries ifaces d) ↔ ∀ e, Selects entries d e → OnLink ifaces e.gw := by
  rcases exists_isFirstMax (RtEntry.Matches d) RtEntry.len entries with ⟨e, he⟩ | hno
  · rw [routeInput_route h he hf, routeOutput_route h he]
    cases hg : findGateway e.gw ifaces with
    | some found =>
        refine iff_of_true (agrees_route _) fun e' he' => ?_
        rw [← he.unique he']
        exact findGateway_isSome.mp ⟨found, hg⟩
    | none =>
        refine iff_of_false (fun ha => ?_) fun hon => ?_
        · obtain ⟨result, hr⟩ := ha.returns.1
          cases hr
        · obtain ⟨found, hfound⟩ := findGateway_isSome.mpr (hon e he)
          rw [hg] at hfound
          cases hfound
  · rw [routeInput_noRoute h hno hf, routeOutput_noRoute h hno]
    exact iff_of_true agrees_noRoute fun e he => absurd he.holds (hno e he.mem)

end RouteInput

/-- An interface with the address 10.0.0.5/24 on device 0. -/
def lanInterface : Ipv4Interface := ⟨0, [⟨0x0a000005, 0xffffff00, 0x0a0000ff, classCLength⟩]⟩

/-- Packets for 10.0.0.5 are local. -/
def isLanAddress (addr _iif : ℕ) : Bool := addr = 0x0a000005

theorem routeInput_agrees_lan :
    let entries : List RtEntry := [⟨0x0a010000, 16, 0x0a000001⟩]
    Agrees (routeInput isLanAddress false entries [lanInterface] 0 0x0a010203)
      (routeOutput entries [lanInterface] 0x0a010203) ↔
        ∀ e, Selects entries 0x0a010203 e → OnLink [lanInterface] e.gw := by
  have hf : Forwarded isLanAddress [lanInterface] 0 0x0a010203 0 := ⟨by decide, by decide⟩
  exact routeInput_agrees (by decide) hf

/-- The gateway 10.9.0.1 is in the subnet of no address: `RouteOutput` returns no route,
`RouteInput` fails an assertion. -/
theorem routeInput_asserts :
    let entries := RtEntry.addRoute [] 0x0a010000 16 0x0a090001
    routeOutput entries [lanInterface] 0x0a010203 = .ok none ∧
    routeInput isLanAddress false entries [lanInterface] 0 0x0a010203 = .error .assert ∧
    ¬ Agrees (routeInput isLanAddress false entries [lanInterface] 0 0x0a010203)
      (routeOutput entries [lanInterface] 0x0a010203) := by
  intro entries
  have hinput : routeInput isLanAddress false entries [lanInterface] 0 0x0a010203 =
    .error .assert := by rfl
  refine ⟨by rfl, hinput, fun ha => ?_⟩
  obtain ⟨result, hr⟩ := ha.returns.1
  rw [hinput] at hr
  cases hr

end Grail
