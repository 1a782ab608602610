import Grail.Netlink
import Grail.RouteLookup
import Grail.Runs

/-! # Histories of the routing table

`table ops` is the routing table after the changes `ops`.  Destination and length identify an
entry (`Keyed`); the entries are those that were added and not removed since (`key_mem_table`).

Every route request that is acknowledged is such a change (`requests_table`), and its prefix
length is not checked: lookups are safe exactly if all routes with a length above 32 have been
deleted again (`routes_safe`).  Two histories with the same entries may leave them in different
orders, and which gateway a lookup finds depends on the order exactly if two longest matches name
different gateways (`gateway_unordered`). -/

namespace Grail

open FirstMax Programs

/-- A change of the routing table. -/
inductive RouteOp where
  | add (dst len gw : ℕ)
  | del (dst len gw : ℕ)
deriving DecidableEq, Repr

def RouteOp.apply (entries : List RtEntry) : RouteOp → List RtEntry
  | add dst len gw => RtEntry.addRoute entries dst len gw
  | del dst len gw => RtEntry.delRoute entries dst len gw

/-- The table after the changes. -/
def table (ops : List RouteOp) : List RtEntry := ops.foldl RouteOp.apply []

/-! ### Keys -/

/-- What `operator==` compares. -/
def RtEntry.key (e : RtEntry) : ℕ × ℕ := (e.dst, e.len)

theorem RtEntry.eq_iff {a b : RtEntry} : a.eq b = true ↔ a.key = b.key := by
  simp [RtEntry.eq, RtEntry.key]

/-- No two entries are equal. -/
def Keyed (entries : List RtEntry) : Prop := (entries.map RtEntry.key).Nodup

variable {entries : List RtEntry} {dst len gw d : ℕ}

theorem delRoute_eq (h : Keyed entries) : RtEntry.delRoute entries dst len gw =
    entries.filter fun e => e.key ≠ (dst, len) := by
  unfold RtEntry.delRoute
  induction entries with
  | nil => rfl
  | cons e entries ih =>
      obtain ⟨hne, hrest⟩ := List.nodup_cons.mp h
      by_cases he : e.key = (dst, len)
      · have heq : e.eq ⟨dst, len, gw⟩ = true := RtEntry.eq_iff.mpr he
        rw [List.eraseP_cons, heq, cond_true, List.filter_cons_of_neg (by simpa using he)]
        refine (List.filter_eq_self.mpr fun x hx => ?_).symm
        have hx : x.key ≠ e.key := fun hk => hne (List.mem_map.mpr ⟨x, hx, hk⟩)
        exact decide_eq_true (he ▸ hx)
      · have heq : e.eq ⟨dst, len, gw⟩ = false :=
          eq_false_of_ne_true fun heq => he (RtEntry.eq_iff.mp heq)
        rw [List.eraseP_cons, heq, cond_false, ih hrest, List.filter_cons_of_pos (by simpa using he)]

theorem Keyed.delRoute (h : Keyed entries) : Keyed (RtEntry.delRoute entries dst len gw) := by
  rw [delRoute_eq h]
  exact h.sublist (List.filter_sublist.map RtEntry.key)

theorem Keyed.addRoute (h : Keyed entries) : Keyed (RtEntry.addRoute entries dst len gw) := by
  unfold RtEntry.addRoute Keyed
  rw [List.map_append, List.nodup_append]
  refine ⟨h.delRoute, List.nodup_singleton _, ?_⟩
  intro k hk k' hk'
  obtain ⟨e, he, rfl⟩ := List.mem_map.mp hk
  obtain rfl := List.mem_singleton.mp hk'
  rw [delRoute_eq h] at he
  exact of_decide_eq_true (List.mem_filter.mp he).2

@[simp] theorem table_concat (ops : List RouteOp) (op : RouteOp) :
    table (ops ++ [op]) = op.apply (table ops) := List.foldl_append ..

theorem keyed_table (ops : List RouteOp) : Keyed (table ops) := by
  induction ops using List.reverseRecOn with
  | nil => exact List.nodup_nil
  | append_singleton ops op ih =>
      rw [table_concat]
      cases op with
      | add dst len gw => exact ih.addRoute
      | del dst len gw => exact ih.delRoute

/-- The entries of another key. -/
theorem other_concat (ops : List RouteOp) {op : RouteOp}
    (hop : op = .add dst len gw ∨ op = .del dst len gw) :
    (table (ops ++ [op])).filter (fun e => e.key ≠ (dst, len)) =
      (table ops).filter (fun e => e.key ≠ (dst, len)) := by
  rw [table_concat]
  rcases hop with rfl | rfl
  · show (RtEntry.delRoute (table ops) dst len gw ++ [RtEntry.mk dst len gw]).filter _ = _
    rw [List.filter_append, delRoute_eq (keyed_table ops), List.filter_filter]
    simp [RtEntry.key]
  · show (RtEntry.delRoute (table ops) dst len gw).filter _ = _
    rw [delRoute_eq (keyed_table ops), List.filter_filter]
    simp

/-- The entry that has been added is the only one of its key. -/
theorem added_only (ops : List RouteOp) :
    (table (ops ++ [.add dst len gw])).filter (fun e => e.key = (dst, len)) = [⟨dst, len, gw⟩] := by
  rw [table_concat]
  show (RtEntry.delRoute (table ops) dst len gw ++ [RtEntry.mk dst len gw]).filter _ = _
  rw [List.filter_append, delRoute_eq (keyed_table ops), List.filter_filter]
  simp [RtEntry.key]

/-- After every history no two entries have the same destination and length; the entry of a route that
has been added is that route; other routes keep their entries and their order. -/
theorem routes_unique (ops : List RouteOp) :
    Keyed (table ops) ∧ ∀ dst len gw,
      (table (ops ++ [.add dst len gw])).filter (fun e => e.key = (dst, len)) = [⟨dst, len, gw⟩] ∧
      ∀ op, op = .add dst len gw ∨ op = .del dst len gw →
        (table (ops ++ [op])).filter (fun e => e.key ≠ (dst, len)) =
          (table ops).filter (fun e => e.key ≠ (dst, len)) :=
  ⟨keyed_table ops, fun _ _ _ => ⟨added_only ops, fun _ hop => other_concat ops hop⟩⟩

theorem Keyed.nodup (h : Keyed entries) : entries.Nodup := List.Nodup.of_map _ h

/-- Every table is what is left of some history. -/
theorem Keyed.table_eq (h : Keyed entries) :
    table (entries.map fun e => .add e.dst e.len e.gw) = entries := by
  induction entries using List.reverseRecOn with
  | nil => rfl
  | append_singleton entries e ih =>
      unfold Keyed at h
      rw [List.map_append, List.nodup_append] at h
      obtain ⟨hrest, -, hne⟩ := h
      rw [List.map_append, List.map_singleton, table_concat, ih hrest]
      show RtEntry.delRoute entries e.dst e.len e.gw ++ [e] = entries ++ [e]
      rw [delRoute_eq hrest, List.filter_eq_self.mpr]
      intro x hx
      exact decide_eq_true (hne x.key (List.mem_map.mpr ⟨x, hx, rfl⟩) e.key List.mem_cons_self)

/-- The route has been added and not deleted since. -/
def Added (ops : List RouteOp) (dst len : ℕ) : Prop :=
  ∃ pre post gw, ops = pre ++ .add dst len gw :: post ∧ ∀ gw', .del dst len gw' ∉ post

theorem added_concat {ops : List RouteOp} {op : RouteOp} : Added (ops ++ [op]) dst len ↔
    (∃ gw, op = .add dst len gw) ∨ Added ops dst len ∧ ∀ gw', op ≠ .del dst len gw' := by
  constructor
  · rintro ⟨pre, post, gw, hops, hpost⟩
    rcases List.eq_nil_or_concat' post with rfl | ⟨post, x, rfl⟩
    · exact Or.inl ⟨gw, (List.cons.inj (List.append_inj' hops rfl).2).1⟩
    · rw [← List.cons_append, ← List.append_assoc] at hops
      obtain ⟨hpre, hx⟩ := List.append_inj' hops rfl
      obtain ⟨rfl, -⟩ := List.cons.inj hx
      refine Or.inr ⟨⟨pre, post, gw, hpre, fun gw' hm => ?_⟩, fun gw' hm => ?_⟩
      · exact hpost gw' (List.mem_append_left _ hm)
      · exact hpost gw' (hm ▸ List.mem_append_right post List.mem_cons_self)
  · rintro (⟨gw, rfl⟩ | ⟨⟨pre, post, gw, rfl, hpost⟩, hop⟩)
    · exact ⟨ops, [], gw, rfl, fun _ => List.not_mem_nil⟩
    · refine ⟨pre, post ++ [op], gw, by simp, fun gw' hm => ?_⟩
      rcases List.mem_append.mp hm with hm | hm
      · exact hpost gw' hm
      · exact hop gw' (List.mem_singleton.mp hm).symm

theorem mem_keys_delRoute (h : Keyed entries) {k : ℕ × ℕ} :
    k ∈ (RtEntry.delRoute entries dst len gw).map RtEntry.key ↔
      k ∈ entries.map RtEntry.key ∧ k ≠ (dst, len) := by
  rw [delRoute_eq h]
  simp only [List.mem_map, List.mem_filter, decide_eq_true_eq]
  constructor
  · rintro ⟨e, ⟨he, hne⟩, rfl⟩
    exact ⟨⟨e, he, rfl⟩, hne⟩
  · rintro ⟨⟨e, he, rfl⟩, hne⟩
    exact ⟨e, ⟨he, hne⟩, rfl⟩

/-- The entries of the table are those that have been added and not deleted since. -/
theorem key_mem_table (ops : List RouteOp) :
    (dst, len) ∈ (table ops).map RtEntry.key ↔ Added ops dst len := by
  induction ops using List.reverseRecOn with
  | nil =>
      refine iff_of_false List.not_mem_nil ?_
      rintro ⟨pre, post, gw, hops, -⟩
      simp at hops
  | append_singleton ops op ih =>
      rw [table_concat, added_concat, ← ih]
      cases op with
      | add dst' len' gw =>
          unfold RouteOp.apply RtEntry.addRoute
          rw [List.map_append, List.mem_append, mem_keys_delRoute (keyed_table ops),
            List.map_singleton, List.mem_singleton]
          simp only [RtEntry.key, RouteOp.add.injEq, Prod.mk.injEq, ne_eq]
          constructor
          · rintro (⟨hmem, -⟩ | ⟨rfl, rfl⟩)
            · exact Or.inr ⟨hmem, fun gw' hop => nomatch hop⟩
            · exact Or.inl ⟨gw, rfl, rfl, rfl⟩
          · rintro (⟨gw', rfl, rfl, rfl⟩ | ⟨hmem, -⟩)
            · exact Or.inr ⟨rfl, rfl⟩
            · by_cases hk : dst = dst' ∧ len = len'
              · exact Or.inr hk
              · exact Or.inl ⟨hmem, hk⟩
      | del dst' len' gw =>
          unfold RouteOp.apply
          rw [mem_keys_delRoute (keyed_table ops)]
          constructor
          · rintro ⟨hmem, hne⟩
            refine Or.inr ⟨hmem, fun gw' hop => hne ?_⟩
            cases hop
            rfl
          · rintro (⟨gw', hop⟩ | ⟨hmem, hne⟩)
            · cases hop
            · refine ⟨hmem, fun hk => hne gw ?_⟩
              cases hk
              rfl

/-! ### Lookups without a failing assertion -/

/-- No lookup fails an assertion about a mask. -/
def SafeLookup (entries : List RtEntry) : Prop :=
  ∀ ifaces d, ∃ route, routeOutput entries ifaces d = .ok route

/-- A lookup evaluates the mask of every entry. -/
theorem bestRoute_error {e : RtEntry} (he : e ∈ entries) (hlen : 32 < e.len) (d : ℕ) :
    bestRoute entries d = .error .assert := by
  unfold bestRoute
  generalize (⟨-1, ⟨0, 0, 0⟩⟩ : BestRoute) = v
  induction entries generalizing v with
  | nil => exact absurd he List.not_mem_nil
  | cons rt entries ih =>
      rw [List.foldlM_cons]
      by_cases hrt : rt.len ≤ 32
      · rw [bestRouteStep_eq hrt]
        rcases List.mem_cons.mp he with rfl | he
        · exact absurd hrt hlen.not_ge
        · exact ih he _
      · unfold bestRouteStep ipv4Mask
        rw [if_neg hrt]
        rfl

theorem safeLookup_iff : SafeLookup entries ↔ ∀ e ∈ entries, e.len ≤ 32 := by
  constructor
  · intro h e he
    by_contra hlen
    obtain ⟨route, hr⟩ := h [] 0
    unfold routeOutput at hr
    rw [bestRoute_error he (lt_of_not_ge hlen)] at hr
    cases hr
  · intro h ifaces d
    obtain ⟨route, hr, -⟩ := routeOutput_longest h ifaces d
    exact ⟨route, hr⟩

/-- Every route with a length above 32 is deleted again. -/
def Withdrawn (ops : List RouteOp) : Prop :=
  ∀ pre post dst len gw, ops = pre ++ .add dst len gw :: post → 32 < len →
    ∃ gw', .del dst len gw' ∈ post

theorem safeLookup_table {ops : List RouteOp} : SafeLookup (table ops) ↔ Withdrawn ops := by
  rw [safeLookup_iff]
  constructor
  · intro h pre post dst len gw hops hlen
    by_contra hno
    have hadded : Added ops dst len :=
      ⟨pre, post, gw, hops, fun gw' hm => hno ⟨gw', hm⟩⟩
    obtain ⟨e, he, hk⟩ := List.mem_map.mp ((key_mem_table ops).mpr hadded)
    cases hk
    exact absurd (h e he) hlen.not_ge
  · intro h e he
    by_contra hlen
    have hmem : (e.dst, e.len) ∈ (table ops).map RtEntry.key := List.mem_map.mpr ⟨e, he, rfl⟩
    obtain ⟨pre, post, gw, hops, hno⟩ := (key_mem_table ops).mp hmem
    obtain ⟨gw', hdel⟩ := h pre post e.dst e.len gw hops (lt_of_not_ge hlen)
    exact hno gw' hdel

/-! ### Requests -/

/-- The change that a request makes when it is acknowledged. -/
def Nlmsg.routeOp : Nlmsg → Option RouteOp
  | .newRoute (some amsg) =>
      match routeAttrs true amsg.attrs (none, none) with
      | .ok (some dst, some gw) => some (.add dst amsg.rtm_dst_len gw)
      | _ => none
  | .delRoute (some amsg) =>
      match routeAttrs false amsg.attrs (none, none) with
      | .ok (some dst, some gw) => some (.del dst amsg.rtm_dst_len gw)
      | _ => none
  | _ => none

/-- `RTM_NEWROUTE` or `RTM_DELROUTE`. -/
def Nlmsg.isRoute : Nlmsg → Bool
  | .newRoute _ => true
  | .delRoute _ => true
  | _ => false

/-- A request to a netlink socket, if it is answered. -/
def request (s : St) (msg : NlId × Nlmsg) : Option St :=
  match (processNlmsghdr msg.1 msg.2).run s with
  | .ok (_, s') => some s'
  | .error _ => none

/-- A route request that is answered edits the table; the answer is an acknowledgement. -/
theorem routeRequest_ok {nl : NlId} {iifOk : Bool} {s s' : St} {u : Unit}
    {edit : List RtEntry → ℕ → ℕ → ℕ → List RtEntry} {body : Option RtMsg}
    (h : (routeRequest nl iifOk edit body).run s = .ok (u, s')) :
    ∃ amsg dst gw, body = some amsg ∧ routeAttrs iifOk amsg.attrs (none, none) = .ok (some dst, some gw) ∧
      s'.d = (s.d.setRoutes (edit s.d.rt dst amsg.rtm_dst_len gw)).push nl [.ack] := by
  unfold routeRequest at h
  cases body with
  | none => cases h
  | some amsg =>
      cases hn : amsg.notify with
      | true =>
          simp only [hn] at h
          cases h
      | false =>
          simp only [hn] at h
          rcases ha : routeAttrs iifOk amsg.attrs (none, none) with e | ⟨_ | dst, _ | gw⟩ <;>
            simp only [ha] at h
          · cases h
          · cases h
          · cases h
          · cases h
          · cases h
            exact ⟨amsg, dst, gw, rfl, ha, rfl⟩

theorem request_table {s s' : St} {msg : NlId × Nlmsg} (hroute : msg.2.isRoute = true)
    (h : request s msg = some s') : ∃ op, msg.2.routeOp = some op ∧ s'.d.rt = op.apply s.d.rt ∧
      (s'.d.nls msg.1).replyQueue = (s.d.nls msg.1).replyQueue ++ [.ack] := by
  obtain ⟨nl, msg⟩ := msg
  unfold request at h
  split at h
  next hr =>
      cases h
      cases msg with
      | newRoute body =>
          obtain ⟨amsg, dst, gw, rfl, ha, hd⟩ := routeRequest_ok hr
          refine ⟨.add dst amsg.rtm_dst_len gw, by simp only [Nlmsg.routeOp, ha], ?_, ?_⟩
          · rw [hd]
            rfl
          · rw [hd]
            simp [Data.push, Data.setNetlink, Data.setRoutes]
      | delRoute body =>
          obtain ⟨amsg, dst, gw, rfl, ha, hd⟩ := routeRequest_ok hr
          refine ⟨.del dst amsg.rtm_dst_len gw, by simp only [Nlmsg.routeOp, ha], ?_, ?_⟩
          · rw [hd]
            rfl
          · rw [hd]
            simp [Data.push, Data.setNetlink, Data.setRoutes]
      | getLink _ => cases hroute
      | getAddr _ => cases hroute
      | other _ => cases hroute
  next => cases h

/-- The changes that the requests make. -/
def routeOps (msgs : List (NlId × Nlmsg)) : List RouteOp := msgs.filterMap fun msg => msg.2.routeOp

theorem requests_foldl {s s' : St} {msgs : List (NlId × Nlmsg)}
    (hroute : ∀ msg ∈ msgs, msg.2.isRoute = true) (hr : Runs.run request s msgs = some s') :
    s'.d.rt = (routeOps msgs).foldl RouteOp.apply s.d.rt := by
  induction msgs generalizing s with
  | nil =>
      cases hr
      rfl
  | cons msg msgs ih =>
      obtain ⟨s₁, hs, hr⟩ := Runs.run_cons.mp hr
      obtain ⟨op, hop, hrt, -⟩ := request_table (hroute msg List.mem_cons_self) hs
      have hops : routeOps (msg :: msgs) = op :: routeOps msgs := by
        simp only [routeOps, List.filterMap_cons, hop]
      rw [ih (fun m hm => hroute m (List.mem_cons_of_mem _ hm)) hr, hrt, hops, List.foldl_cons]

/-- After route requests that have all been acknowledged, lookups are safe exactly if every route
with a length above 32 has been deleted again. -/
theorem routes_safe {s s' : St} {msgs : List (NlId × Nlmsg)} (h₀ : s.d.rt = [])
    (hroute : ∀ msg ∈ msgs, msg.2.isRoute = true) (hr : Runs.run request s msgs = some s') :
    SafeLookup s'.d.rt ↔ Withdrawn (routeOps msgs) := by
  rw [requests_foldl hroute hr, h₀]
  exact safeLookup_table

/-- A request for the route to `dst/len` over the gateway 10.0.0.1. -/
def routeVia (dst len : ℕ) : RtMsg := ⟨len, false, [.dst dst, .gateway 0x0a000001]⟩

/-- A route of length 40 is added and deleted again. -/
theorem routes_safe_withdrawn :
    let msgs : List (NlId × Nlmsg) := [(0, .newRoute (some (routeVia 0x0a010000 40))),
      (0, .newRoute (some (routeVia 0x0a010000 16))), (1, .delRoute (some (routeVia 0x0a010000 40)))]
    ∃ s', Runs.run request (St.initial {} (Env.script [] [])) msgs = some s' ∧
      (SafeLookup s'.d.rt ↔ Withdrawn (routeOps msgs)) := by
  intro msgs
  exact ⟨_, rfl, @routes_safe (St.initial {} (Env.script [] [])) _ msgs rfl (by decide) rfl⟩

/-- A route of length 33 is acknowledged, and every lookup fails an assertion. -/
theorem newRoute_unchecked :
    let msg : NlId × Nlmsg := (0, .newRoute (some (routeVia 0x0a010000 33)))
    ∃ s', Runs.run request (St.initial {} (Env.script [] [])) [msg] = some s' ∧
      (s'.d.nls 0).replyQueue = [.ack] ∧ (∀ ifaces d, routeOutput s'.d.rt ifaces d = .error .assert) ∧
      ¬ SafeLookup s'.d.rt := by
  intro msg
  refine ⟨_, rfl, rfl, fun ifaces d => rfl, fun h => ?_⟩
  obtain ⟨route, hr⟩ := h [] 0
  cases hr

/-! ### Two histories with the same entries -/

/-- The gateway that a lookup selects. -/
def selectedGateway (entries : List RtEntry) (d : ℕ) : Except Crash (Option ℕ) :=
  (bestRoute entries d).map fun v => if v.bestLen ≥ 0 then some v.finalRt.gw else none

/-- Entries of one length with the same prefix and different gateways are overridden by longer ones
wherever they match. -/
def Unambiguous (entries : List RtEntry) : Prop :=
  ∀ e₁ ∈ entries, ∀ e₂ ∈ entries, e₁.len = e₂.len → e₂.Matches e₁.dst → e₁.gw ≠ e₂.gw →
    ∀ d, e₁.Matches d → ∃ e ∈ entries, e₁.len < e.len ∧ e.Matches d

/-- A longest match. -/
abbrev LongestMatch (entries : List RtEntry) (d : ℕ) (e : RtEntry) : Prop :=
  IsMax (RtEntry.Matches d) RtEntry.len entries e

theorem RtEntry.matches_iff {e : RtEntry} : e.Matches d ↔
    e.dst &&& (2 ^ 32 - 2 ^ (32 - e.len)) = d &&& (2 ^ 32 - 2 ^ (32 - e.len)) := decide_eq_true_iff

theorem unambiguous_iff : Unambiguous entries ↔
    ∀ d e₁ e₂, LongestMatch entries d e₁ → LongestMatch entries d e₂ → e₁.gw = e₂.gw := by
  constructor
  · intro h d e₁ e₂ ⟨he₁, hm₁, hmax₁⟩ ⟨he₂, hm₂, hmax₂⟩
    by_contra hgw
    have hlen : e₁.len = e₂.len := le_antisymm (hmax₂ e₁ he₁ hm₁) (hmax₁ e₂ he₂ hm₂)
    have hsame : e₂.Matches e₁.dst := by
      rw [RtEntry.matches_iff] at hm₁ hm₂ ⊢
      rw [hm₂, ← hlen, hm₁]
    obtain ⟨e, he, hlt, hm⟩ := h e₁ he₁ e₂ he₂ hlen hsame hgw d hm₁
    exact absurd (hmax₁ e he hm) hlt.not_ge
  · intro h e₁ he₁ e₂ he₂ hlen hsame hgw d hm₁
    by_contra hno
    have hm₂ : e₂.Matches d := by
      rw [RtEntry.matches_iff] at hm₁ hsame ⊢
      rw [hsame, ← hlen, hm₁]
    have hmax : ∀ e ∈ entries, e.Matches d → e.len ≤ e₁.len := fun e he hm =>
      le_of_not_gt fun hlt => hno ⟨e, he, hlt, hm⟩
    exact hgw (h d e₁ e₂ ⟨he₁, hm₁, hmax⟩ ⟨he₂, hm₂, fun e he hm => hlen ▸ hmax e he hm⟩)

theorem selectedGateway_route (h : ∀ e ∈ entries, e.len ≤ 32) {e : RtEntry}
    (he : Selects entries d e) : selectedGateway entries d = .ok (some e.gw) := by
  unfold selectedGateway
  rw [bestRoute_route h he]
  exact congrArg Except.ok (if_pos (Int.natCast_nonneg e.len))

theorem selectedGateway_noRoute (h : ∀ e ∈ entries, e.len ≤ 32)
    (hno : ∀ e ∈ entries, ¬ e.Matches d) : selectedGateway entries d = .ok none := by
  obtain ⟨rt, hv⟩ := bestRoute_noRoute h hno
  unfold selectedGateway
  rw [hv]
  rfl

/-- All histories that end with the entries of `ops` select the same gateways exactly if these
entries are unambiguous, or if a length above 32 makes every lookup fail. -/
theorem gateway_unordered (ops : List RouteOp) :
    (∀ ops₁ ops₂, (∀ e, e ∈ table ops₁ ↔ e ∈ table ops) → (∀ e, e ∈ table ops₂ ↔ e ∈ table ops) →
      ∀ d, selectedGateway (table ops₁) d = selectedGateway (table ops₂) d) ↔
    (∃ e ∈ table ops, 32 < e.len) ∨ Unambiguous (table ops) := by
  by_cases hlen : ∃ e ∈ table ops, 32 < e.len
  · obtain ⟨e, he, hlt⟩ := hlen
    refine iff_of_true (fun ops₁ ops₂ h₁ h₂ d => ?_) (Or.inl ⟨e, he, hlt⟩)
    unfold selectedGateway
    rw [bestRoute_error ((h₁ e).mpr he) hlt, bestRoute_error ((h₂ e).mpr he) hlt]
  · rw [or_iff_right hlen, unambiguous_iff]
    have hle : ∀ e ∈ table ops, e.len ≤ 32 := fun e he => le_of_not_gt fun hlt => hlen ⟨e, he, hlt⟩
    constructor
    · intro h d
      refine (perm_agree_iff RtEntry.gw).mp fun l₁ l₂ e₁ e₂ hl₁ hl₂ he₁ he₂ => ?_
      have hk₁ : Keyed l₁ := (hl₁.map RtEntry.key).nodup_iff.mpr (keyed_table ops)
      have hk₂ : Keyed l₂ := (hl₂.map RtEntry.key).nodup_iff.mpr (keyed_table ops)
      have hd := h _ _ (fun e => by rw [hk₁.table_eq, hl₁.mem_iff])
        (fun e => by rw [hk₂.table_eq, hl₂.mem_iff]) d
      rw [hk₁.table_eq, hk₂.table_eq,
        selectedGateway_route (fun e he => hle e (hl₁.mem_iff.mp he)) he₁,
        selectedGateway_route (fun e he => hle e (hl₂.mem_iff.mp he)) he₂] at hd
      exact Option.some.inj (Except.ok.inj hd)
    · intro h ops₁ ops₂ h₁ h₂ d
      have hle₁ : ∀ e ∈ table ops₁, e.len ≤ 32 := fun e he => hle e ((h₁ e).mp he)
      have hle₂ : ∀ e ∈ table ops₂, e.len ≤ 32 := fun e he => hle e ((h₂ e).mp he)
      have hp₁ := (List.perm_ext_iff_of_nodup (keyed_table ops₁).nodup (keyed_table ops).nodup).mpr h₁
      have hp₂ := (List.perm_ext_iff_of_nodup (keyed_table ops₂).nodup (keyed_table ops).nodup).mpr h₂
      rcases exists_isFirstMax (RtEntry.Matches d) RtEntry.len (table ops₁) with ⟨e₁, he₁⟩ | hno
      · rcases exists_isFirstMax (RtEntry.Matches d) RtEntry.len (table ops₂) with ⟨e₂, he₂⟩ | hno
        · have hgw := (perm_agree_iff RtEntry.gw).mpr (h d) _ _ e₁ e₂ hp₁ hp₂ he₁ he₂
          rw [selectedGateway_route hle₁ he₁, selectedGateway_route hle₂ he₂, hgw]
        · exact absurd he₁.holds (hno e₁ ((h₂ e₁).mpr ((h₁ e₁).mp he₁.mem)))
      · have hno₂ : ∀ e ∈ table ops₂, ¬ e.Matches d := fun e he =>
          hno e ((h₁ e).mpr ((h₂ e).mp he))
        rw [selectedGateway_noRoute hle₁ hno, selectedGateway_noRoute hle₂ hno₂]

/-- The routes to 10.1.0.1/16 over 10.0.0.1 and to 10.1.0.2/16 over 10.0.0.2: the older one is
selected for both destinations. -/
theorem gateway_ordered :
    let older : List RouteOp := [.add 0x0a010001 16 0x0a000001, .add 0x0a010002 16 0x0a000002]
    let newer : List RouteOp := [.add 0x0a010002 16 0x0a000002, .add 0x0a010001 16 0x0a000001]
    (∀ e, e ∈ table older ↔ e ∈ table newer) ∧
      selectedGateway (table older) 0x0a010203 = .ok (some 0x0a000001) ∧
      selectedGateway (table newer) 0x0a010203 = .ok (some 0x0a000002) := by
  intro older newer
  have hperm : (table older).Perm (table newer) := by decide
  exact ⟨fun e => hperm.mem_iff, rfl, rfl⟩

end Grail
