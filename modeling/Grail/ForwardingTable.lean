import Grail.NetlinkService

/-! # Forwarding by the routes that have been asked for

`lookup routes d` is the gateway of the longest prefix of `d` that has a route: the textbook rule,
on the map of routes of the netlink service.  The scans of `RouteOutput` and `RouteInput` over the
list of entries compute it, if destinations are the networks that their lengths say (`Networks`);
then no two entries of one length match an address, and their order does not matter.

With the refinement of the netlink service this says how a node forwards packets after a run
(`run_forwards`): by the requests that its threads have sent to netlink sockets, in the order in
which they were handled, and by nothing else. -/

namespace Grail

open FirstMax Programs

/-! ### The last value below a bound -/

section lastSome

variable {α : Type} {f : ℕ → Option α} {n : ℕ} {a : α}

/-- The value at the largest argument up to `n` that has one. -/
def lastSome (f : ℕ → Option α) : ℕ → Option α
  | 0 => f 0
  | n + 1 => (f (n + 1)).or (lastSome f n)

theorem lastSome_of {m : ℕ} (hm : m ≤ n) (hf : f m = some a)
    (hlast : ∀ k, m < k → k ≤ n → f k = none) : lastSome f n = some a := by
  induction n with
  | zero =>
      obtain rfl := Nat.le_zero.mp hm
      exact hf
  | succ n ih =>
      rw [lastSome]
      rcases Nat.le_succ_iff.mp hm with hm | rfl
      · rw [hlast (n + 1) (Nat.lt_succ_of_le hm) le_rfl, Option.none_or]
        exact ih hm fun k hk hkn => hlast k hk (Nat.le_succ_of_le hkn)
      · rw [hf, Option.some_or]

theorem lastSome_none (h : ∀ k, k ≤ n → f k = none) : lastSome f n = none := by
  induction n with
  | zero => exact h 0 le_rfl
  | succ n ih =>
      rw [lastSome, h (n + 1) le_rfl, Option.none_or]
      exact ih fun k hk => h k (Nat.le_succ_of_le hk)

end lastSome

/-! ### Longest prefix match -/

/-- The network of length `len` that the address `d` is in. -/
def network (len d : ℕ) : ℕ := d &&& (2 ^ 32 - 2 ^ (32 - len))

/-- The gateway of the longest prefix of `d` that has a route. -/
def lookup (routes : ℕ × ℕ → Option ℕ) (d : ℕ) : Option ℕ :=
  lastSome (fun len => routes (network len d, len)) 32

/-- Routes lead to networks. -/
def Networks (routes : ℕ × ℕ → Option ℕ) : Prop :=
  ∀ dst len gw, routes (dst, len) = some gw → len ≤ 32 ∧ network len dst = dst

section table

variable {entries : List RtEntry} {d : ℕ}

theorem routeMap_of_mem (h : Keyed entries) {e : RtEntry} (he : e ∈ entries) :
    routeMap entries e.key = some e.gw := by
  unfold routeMap
  cases hfind : entries.find? (fun x => x.key = e.key) with
  | none =>
      have hne := List.find?_eq_none.mp hfind e he
      exact absurd (decide_eq_true rfl) hne
  | some x =>
      have hk : x.key = e.key := by simpa using List.find?_some hfind
      obtain rfl := List.inj_on_of_nodup_map h (List.mem_of_find?_eq_some hfind) he hk
      rfl

theorem mem_of_routeMap {k : ℕ × ℕ} {gw : ℕ} (h : routeMap entries k = some gw) :
    ⟨k.1, k.2, gw⟩ ∈ entries := by
  unfold routeMap at h
  obtain ⟨e, he, rfl⟩ := Option.map_eq_some_iff.mp h
  have hk : e.key = k := by simpa using List.find?_some he
  subst hk
  exact List.mem_of_find?_eq_some he

theorem matches_iff_network {e : RtEntry} (h : network e.len e.dst = e.dst) :
    e.Matches d ↔ e.dst = network e.len d := by
  have hm : e.Matches d ↔ network e.len e.dst = network e.len d := by
    simp [RtEntry.Matches, isMatch, network]
  rw [hm, h]

/-- The entry that the scan selects is the longest prefix match. -/
theorem lookup_selects (hk : Keyed entries) (hn : Networks (routeMap entries)) {e : RtEntry}
    (he : Selects entries d e) : lookup (routeMap entries) d = some e.gw := by
  have hmem := routeMap_of_mem hk he.mem
  obtain ⟨hlen, hdst⟩ := hn _ _ _ hmem
  have hnet : e.dst = network e.len d := (matches_iff_network hdst).mp he.holds
  refine lastSome_of hlen ?_ fun k hlt _ => ?_
  · rw [← hnet]
    exact hmem
  · by_contra hsome
    obtain ⟨gw, hgw⟩ := Option.ne_none_iff_exists'.mp hsome
    have hmem' := mem_of_routeMap hgw
    have hnet' := (hn _ _ _ hgw).2
    have hmatch : RtEntry.Matches d ⟨network k d, k, gw⟩ := (matches_iff_network hnet').mpr rfl
    exact absurd (he.le hmem' hmatch) hlt.not_ge

theorem lookup_noRoute (hn : Networks (routeMap entries))
    (hno : ∀ e ∈ entries, ¬ e.Matches d) : lookup (routeMap entries) d = none := by
  refine lastSome_none fun k _ => ?_
  by_contra hsome
  obtain ⟨gw, hgw⟩ := Option.ne_none_iff_exists'.mp hsome
  have hnet := (hn _ _ _ hgw).2
  exact hno _ (mem_of_routeMap hgw) ((matches_iff_network hnet).mpr rfl)

theorem Networks.len_le (hk : Keyed entries) (hn : Networks (routeMap entries)) :
    ∀ e ∈ entries, e.len ≤ 32 := fun _ he => (hn _ _ _ (routeMap_of_mem hk he)).1

/-- `RouteOutput` looks up the gateway. -/
theorem routeOutput_lookup (hk : Keyed entries) (hn : Networks (routeMap entries))
    (ifaces : List Ipv4Interface) (d : ℕ) : routeOutput entries ifaces d =
      .ok ((lookup (routeMap entries) d).bind fun gw =>
        (findGateway gw ifaces).map (createRoute d gw)) := by
  rcases exists_isFirstMax (RtEntry.Matches d) RtEntry.len entries with ⟨e, he⟩ | hno
  · rw [lookup_selects hk hn he, routeOutput_route (Networks.len_le hk hn) he]
    rfl
  · rw [lookup_noRoute hn hno, routeOutput_noRoute (Networks.len_le hk hn) hno]
    rfl

/-- A packet for `d` is forwarded over the gateway, which must be on-link. -/
def forwardOver (ifaces : List Ipv4Interface) (d : ℕ) : Option ℕ → Except Crash RouteInputResult
  | none => .ok ⟨none, none, false⟩
  | some gw =>
      match findGateway gw ifaces with
      | none => .error .assert
      | some found => .ok ⟨none, some (createRoute d gw found), true⟩

/-- `RouteInput` looks up the gateway of a packet that is not for the node. -/
theorem routeInput_lookup (hk : Keyed entries) (hn : Networks (routeMap entries))
    {isDestinationAddress : ℕ → ℕ → Bool} {ifaces : List Ipv4Interface} {idev iif : ℕ}
    (hf : Forwarded isDestinationAddress ifaces idev d iif) (lcbIsNull : Bool) :
    routeInput isDestinationAddress lcbIsNull entries ifaces idev d =
      forwardOver ifaces d (lookup (routeMap entries) d) := by
  rcases exists_isFirstMax (RtEntry.Matches d) RtEntry.len entries with ⟨e, he⟩ | hno
  · rw [lookup_selects hk hn he, routeInput_route (Networks.len_le hk hn) he hf]
    rw [forwardOver]
    cases findGateway e.gw ifaces with
    | none => rfl
    | some found => rfl
  · rw [lookup_noRoute hn hno, routeInput_noRoute (Networks.len_le hk hn) hno hf]
    rfl

end table

/-! ### Runs -/

/-- The routes after the operations. -/
def routesAfter (ops : List ServiceOp) : ℕ × ℕ → Option ℕ :=
  (ops.filterMap ServiceOp.routeOp).foldl RouteOp.update fun _ => none

theorem Service.run_routes {devices : List NetDevice} {σ : Service} {ops : List ServiceOp}
    (h : Runs.run (Service.step devices) Service.initial ops = some σ) :
    σ.routes = routesAfter ops := by
  let f (routes : ℕ × ℕ → Option ℕ) (op : ServiceOp) : ℕ × ℕ → Option ℕ :=
    op.routeOp.elim routes fun op => op.update routes
  have hfold : σ.routes = ops.foldl f fun _ => none :=
    Runs.run_foldl (f := f) (fun _ _ _ hs => step_routes hs) h
  rw [hfold, routesAfter, List.foldl_filterMap]
  congr 1
  funext routes op
  show op.routeOp.elim routes _ = _
  cases op.routeOp <;> rfl

/-- A route that is added leads to a network. -/
def RouteOp.toNetwork : RouteOp → Bool
  | add dst len _ => decide (len ≤ 32 ∧ network len dst = dst)
  | del _ _ _ => true

theorem Networks.update {routes : ℕ × ℕ → Option ℕ} (h : Networks routes) {op : RouteOp}
    (hop : op.toNetwork = true) : Networks (op.update routes) := by
  intro dst len gw hr
  cases op with
  | add dst' len' gw' =>
      by_cases hk : (dst, len) = (dst', len')
      · cases hk
        exact of_decide_eq_true hop
      · rw [RouteOp.update, Function.update_of_ne hk] at hr
        exact h dst len gw hr
  | del dst' len' gw' =>
      by_cases hk : (dst, len) = (dst', len')
      · cases hk
        simp [RouteOp.update] at hr
      · rw [RouteOp.update, Function.update_of_ne hk] at hr
        exact h dst len gw hr

theorem networks_foldl {ops : List RouteOp} (hops : ∀ op ∈ ops, op.toNetwork = true)
    {routes : ℕ × ℕ → Option ℕ} (h : Networks routes) :
    Networks (ops.foldl RouteOp.update routes) := by
  induction ops generalizing routes with
  | nil => exact h
  | cons op ops ih =>
      obtain ⟨hop, hops⟩ := List.forall_mem_cons.mp hops
      exact ih hops (h.update hop)

/-- The routes that the step adds lead to networks. -/
def addsNetworks (s : St) (l : Label) : Bool :=
  (serviceOps s l s).all fun op => op.routeOp.all RouteOp.toNetwork

theorem networks_of_run {app : App} {env : Env} {ls : List Label} {s : St}
    (hr : run (St.initial app env) ls = some s)
    (hC : Runs.Meets step (fun s l => addsNetworks s l = true) (St.initial app env) ls) :
    Networks (routesAfter (Runs.emitted step serviceOps (St.initial app env) ls)) := by
  have hops : ∀ op ∈ Runs.emitted step serviceOps (St.initial app env) ls,
      op.routeOp.all RouteOp.toNetwork = true :=
    Runs.forall_emitted (J := fun _ => True) (fun _ _ _ _ _ => trivial)
      (fun s l s' _ (hl : addsNetworks s l = true) _ => List.all_eq_true.mp hl) trivial hr hC
  refine networks_foldl (fun op hop => ?_) fun _ _ _ h => by cases h
  obtain ⟨sop, hsop, hop⟩ := List.mem_filterMap.mp hop
  have hall := hops sop hsop
  rw [hop] at hall
  exact hall

/-- How packets for `d` are routed if their gateway is `gateway`: those of the node itself, and
those that it receives and that are not for it. -/
structure RoutesBy (gateway : Option ℕ) (entries : List RtEntry) (ifaces : List Ipv4Interface)
    (d : ℕ) : Prop where
  output : routeOutput entries ifaces d =
    .ok (gateway.bind fun gw => (findGateway gw ifaces).map (createRoute d gw))
  input : ∀ isDestinationAddress lcbIsNull idev iif,
    Forwarded isDestinationAddress ifaces idev d iif →
    routeInput isDestinationAddress lcbIsNull entries ifaces idev d = forwardOver ifaces d gateway

/-- After a run in which all routes that are added lead to networks, the node looks up the gateway
of a packet by longest prefix match in the routes that have been asked for on all netlink sockets,
in the order in which the requests were handled. -/
theorem run_forwards {app : App} {env : Env} {ls : List Label} {s : St}
    (hr : run (St.initial app env) ls = some s)
    (hC : Runs.Meets step (fun s l => addsNetworks s l = true) (St.initial app env) ls)
    (ifaces : List Ipv4Interface) (d : ℕ) :
    RoutesBy (lookup (routesAfter (Runs.emitted step serviceOps (St.initial app env) ls)) d)
      s.d.rt ifaces d := by
  have hn := networks_of_run hr hC
  have hroutes : routeMap s.d.rt =
      routesAfter (Runs.emitted step serviceOps (St.initial app env) ls) :=
    Service.run_routes (service_of_run hr)
  have hk : Keyed s.d.rt := (serviceTables_of_run hr).keyed
  rw [← hroutes] at hn
  rw [← hroutes]
  refine ⟨routeOutput_lookup hk hn ifaces d, ?_⟩
  intro isDestinationAddress lcbIsNull idev iif hf
  exact routeInput_lookup hk hn hf lcbIsNull

/-- Two netlink sockets: 10.1.0.0/16 is added over the first, 10.1.2.0/24 over the second, which is
deleted again over the first. -/
def routingEnv : Env :=
  .script [.entry (.socket AF_NETLINK SOCK_RAW NETLINK_ROUTE), .exit 0,
    .entry (.socket AF_NETLINK SOCK_RAW NETLINK_ROUTE), .exit 0,
    .entry (.sendmsg 100 [⟨44, [.newRoute (some (routeVia 0x0a010000 16))], 0⟩]), .exit 0,
    .entry (.sendto 101 ⟨88, [.newRoute (some ⟨24, false, [.dst 0x0a010200, .gateway 0x0a000002]⟩),
      .newRoute (some ⟨24, false, [.dst 0x0a010300, .gateway 0x0a000002]⟩)], 0⟩ 0 none), .exit 0,
    .entry (.sendmsg 100 [⟨44, [.delRoute (some (routeVia 0x0a010200 24))], 0⟩]), .exit 0] []

def routingLabels : List Label := (List.range 5).map fun i => ⟨200 * i, .fire 0⟩

theorem run_forwards_lan :
    ∃ s, run (St.initial requestApp routingEnv) routingLabels = some s ∧
      routeOutput s.d.rt [lanInterface] 0x0a010203 =
        .ok (some ⟨0x0a010203, 0x0a000001, 0x0a000005, 0⟩) ∧
      RoutesBy (lookup (routesAfter (Runs.emitted step serviceOps
        (St.initial requestApp routingEnv) routingLabels)) 0x0a010303) s.d.rt [lanInterface]
        0x0a010303 := by
  have hrun : (run (St.initial requestApp routingEnv) routingLabels).any
      (fun s => s.d.rt = [⟨0x0a010000, 16, 0x0a000001⟩, ⟨0x0a010300, 24, 0x0a000002⟩]) = true := by
    decide +kernel
  obtain ⟨s, hs, hview⟩ := (Option.any_eq_true _ _).mp hrun
  have hrt := of_decide_eq_true hview
  have hmeets : Runs.Meets step (fun s l => addsNetworks s l = true)
      (St.initial requestApp routingEnv) routingLabels := by
    decide +kernel
  refine ⟨s, hs, ?_, run_forwards hs hmeets [lanInterface] 0x0a010303⟩
  rw [hrt]
  rfl

end Grail
