import Grail.RouteTables
import Grail.RouteRequests

/-! # Deleting routes

`DelRoute` is told a gateway and compares destination and length only.  `Via` says which gateway
the entry of a route names (`mem_table`), so a request deletes the route over another gateway
exactly if the last change of the route added it over that one (`delRoute_via`).

The loop over the attributes of `RTM_DELROUTE` has no case for `RTA_IIF`, which `RTM_NEWROUTE`
accepts; on other attributes the two loops do the same (`attrLoop_noIif`).  So a payload that has
added a route deletes it exactly if it has no `RTA_IIF` (`newRoute_deletes`). -/

namespace Grail

open Programs Bytes Loops Libnl

/-! ### The gateway of a route -/

/-- The destination and the length that a change names. -/
def RouteOp.key : RouteOp → ℕ × ℕ
  | add dst len _ => (dst, len)
  | del dst len _ => (dst, len)

/-- The last change of the route adds it via `gw`. -/
def Via (ops : List RouteOp) (dst len gw : ℕ) : Prop :=
  ∃ pre post, ops = pre ++ .add dst len gw :: post ∧ ∀ op ∈ post, op.key ≠ (dst, len)

section Gateways

variable {entries : List RtEntry} {ops : List RouteOp} {dst len gw : ℕ}

theorem via_concat {op : RouteOp} : Via (ops ++ [op]) dst len gw ↔
    op = .add dst len gw ∨ Via ops dst len gw ∧ op.key ≠ (dst, len) := by
  constructor
  · rintro ⟨pre, post, hops, hpost⟩
    rcases List.eq_nil_or_concat' post with rfl | ⟨post, x, rfl⟩
    · exact Or.inl (List.cons.inj (List.append_inj' hops rfl).2).1
    · rw [← List.cons_append, ← List.append_assoc] at hops
      obtain ⟨hpre, hx⟩ := List.append_inj' hops rfl
      obtain ⟨rfl, -⟩ := List.cons.inj hx
      refine Or.inr ⟨⟨pre, post, hpre, fun op hm => ?_⟩, ?_⟩
      · exact hpost op (List.mem_append_left _ hm)
      · exact hpost _ (List.mem_append_right post List.mem_cons_self)
  · rintro (rfl | ⟨⟨pre, post, rfl, hpost⟩, hop⟩)
    · exact ⟨ops, [], rfl, fun _ hm => absurd hm List.not_mem_nil⟩
    · refine ⟨pre, post ++ [op], by simp, fun op' hm => ?_⟩
      rcases List.mem_append.mp hm with hm | hm
      · exact hpost op' hm
      · exact List.mem_singleton.mp hm ▸ hop

theorem mem_delRoute (h : Keyed entries) {e : RtEntry} :
    e ∈ RtEntry.delRoute entries dst len gw ↔ e ∈ entries ∧ e.key ≠ (dst, len) := by
  rw [delRoute_eq h, List.mem_filter, decide_eq_true_eq]

/-- The entry of a route names the gateway over which it was added last. -/
theorem mem_table (ops : List RouteOp) : ⟨dst, len, gw⟩ ∈ table ops ↔ Via ops dst len gw := by
  induction ops using List.reverseRecOn with
  | nil =>
      refine iff_of_false List.not_mem_nil ?_
      rintro ⟨pre, post, hops, -⟩
      simp at hops
  | append_singleton ops op ih =>
      rw [table_concat, via_concat, ← ih]
      cases op with
      | add dst' len' gw' =>
          unfold RouteOp.apply RtEntry.addRoute
          rw [List.mem_append, mem_delRoute (keyed_table ops), List.mem_singleton]
          simp only [RtEntry.key, RouteOp.key, RtEntry.mk.injEq, RouteOp.add.injEq]
          constructor
          · rintro (⟨hmem, hne⟩ | ⟨rfl, rfl, rfl⟩)
            · exact Or.inr ⟨hmem, fun hk => hne hk.symm⟩
            · exact Or.inl ⟨rfl, rfl, rfl⟩
          · rintro (⟨rfl, rfl, rfl⟩ | ⟨hmem, hne⟩)
            · exact Or.inr ⟨rfl, rfl, rfl⟩
            · exact Or.inl ⟨hmem, fun hk => hne hk.symm⟩
      | del dst' len' gw' =>
          unfold RouteOp.apply
          rw [mem_delRoute (keyed_table ops), or_iff_right RouteOp.noConfusion]
          simp only [RtEntry.key, RouteOp.key]
          exact and_congr_right fun _ => ne_comm

/-- Which entries a deletion removes. -/
theorem removed_iff (h : Keyed entries) {e : RtEntry} (he : e ∈ entries) :
    e ∉ RtEntry.delRoute entries dst len gw ↔ e.key = (dst, len) := by
  rw [mem_delRoute h]
  tauto

/-- After every history of acknowledged route requests, a request that deletes a route via `gw`
removes only an entry of that gateway exactly if the last change of the route, unless it is a
deletion, added it via `gw`.  A route that was added via one gateway and then via another does not
survive a deletion via the first. -/
theorem delRoute_via {s s' s'' : St} {msgs : List (NlId × Nlmsg)} {nl : NlId} {msg : Nlmsg}
    {dst len gw : ℕ} (h₀ : s.d.rt = []) (hroute : ∀ msg ∈ msgs, msg.2.isRoute = true)
    (hr : Runs.run request s msgs = some s') (hop : msg.routeOp = some (.del dst len gw))
    (hdel : request s' (nl, msg) = some s'') :
    ((∀ e ∈ s'.d.rt, e ∉ s''.d.rt → e.gw = gw) ↔
      ∀ gw', Via (routeOps msgs) dst len gw' → gw' = gw) ∧
    ∀ ops gw₁ gw₂, ⟨dst, len, gw₂⟩ ∉ table (ops ++ [.add dst len gw₁, .add dst len gw₂,
      .del dst len gw₁]) := by
  have hrt : s'.d.rt = table (routeOps msgs) := by
    rw [requests_foldl hroute hr, h₀]
    rfl
  have hisRoute : msg.isRoute = true := by
    cases msg with
    | newRoute body => rfl
    | delRoute body => rfl
    | getLink _ => cases hop
    | getAddr _ => cases hop
    | other _ => cases hop
  obtain ⟨op, hop', hrt', -⟩ := request_table hisRoute hdel
  obtain rfl : RouteOp.del dst len gw = op := Option.some.inj (hop.symm.trans hop')
  have hk : Keyed s'.d.rt := hrt ▸ keyed_table _
  have hdel : s''.d.rt = RtEntry.delRoute s'.d.rt dst len gw := hrt'
  refine ⟨⟨fun h gw' hvia => ?_, fun h e he hno => ?_⟩, fun ops gw₁ gw₂ hmem => ?_⟩
  · have hmem : ⟨dst, len, gw'⟩ ∈ s'.d.rt := hrt ▸ (mem_table _).mpr hvia
    refine h _ hmem ?_
    rw [hdel]
    exact (removed_iff hk hmem).mpr rfl
  · rw [hdel, removed_iff hk he] at hno
    obtain ⟨d, l, g⟩ := e
    obtain ⟨rfl, rfl⟩ := Prod.mk.inj hno
    exact h g ((mem_table _).mp (hrt ▸ he))
  · have hops : ops ++ [RouteOp.add dst len gw₁, .add dst len gw₂, .del dst len gw₁] =
      (ops ++ [.add dst len gw₁, .add dst len gw₂]) ++ [.del dst len gw₁] := by simp
    rw [mem_table, hops, via_concat] at hmem
    rcases hmem with hmem | ⟨-, hne⟩
    · cases hmem
    · exact hne rfl

end Gateways

/-- A request for the route to 10.1.0.0/16 via `gw`. -/
def routeOver (gw : ℕ) : RtMsg := ⟨16, false, [.dst 0x0a010000, .gateway gw]⟩

/-- A route that was added via one gateway is deleted via it. -/
theorem delRoute_via_same :
    let s := St.initial {} (Env.script [] [])
    let msgs : List (NlId × Nlmsg) := [(0, .newRoute (some (routeOver 0x0a000001)))]
    ∃ s' s'', Runs.run request s msgs = some s' ∧
      request s' (0, .delRoute (some (routeOver 0x0a000001))) = some s'' ∧
      (((∀ e ∈ s'.d.rt, e ∉ s''.d.rt → e.gw = 0x0a000001) ↔
        ∀ gw', Via (routeOps msgs) 0x0a010000 16 gw' → gw' = 0x0a000001) ∧
      ∀ ops gw₁ gw₂, ⟨0x0a010000, 16, gw₂⟩ ∉ table (ops ++ [.add 0x0a010000 16 gw₁,
        .add 0x0a010000 16 gw₂, .del 0x0a010000 16 gw₁])) := by
  intro s msgs
  exact ⟨_, _, rfl, rfl, @delRoute_via s _ _ msgs 0 (.delRoute (some (routeOver 0x0a000001)))
    _ _ _ rfl (by decide) rfl rfl rfl⟩

/-- The route is added via 10.0.0.1 and then via 10.0.0.2; the deletion via 10.0.0.1 removes it. -/
theorem delRoute_other_gateway :
    let s := St.initial {} (Env.script [] [])
    let msgs : List (NlId × Nlmsg) := [(0, .newRoute (some (routeOver 0x0a000001))),
      (0, .newRoute (some (routeOver 0x0a000002)))]
    ∃ s' s'', Runs.run request s msgs = some s' ∧
      request s' (0, .delRoute (some (routeOver 0x0a000001))) = some s'' ∧
      s'.d.rt = [⟨0x0a010000, 16, 0x0a000002⟩] ∧ s''.d.rt = [] ∧
      ¬ ∀ e ∈ s'.d.rt, e ∉ s''.d.rt → e.gw = 0x0a000001 := by
  intro s msgs
  refine ⟨_, _, rfl, rfl, rfl, rfl, fun h => ?_⟩
  exact absurd (h ⟨0x0a010000, 16, 0x0a000002⟩ (by decide) (by decide)) (by decide)

/-! ### The attributes of a deletion -/

/-- The loop of `RTM_NEWROUTE` comes to an `RTA_IIF`. -/
def HasIif (hdr : Memory) : Prop :=
  ∃ c, Visits (goesOn true hdr) (rtaNext hdr) (firstAttr hdr) c ∧ rtaOk hdr c = true ∧
    loadRta hdr c.cur_attr = .iif

/-- The two messages have the same length and, wherever the first is read as an `RTM_NEWROUTE`
request, the same bytes: the `rtmsg` and the attributes. -/
structure SamePayload (hdr hdr' : Memory) : Prop where
  len : nlmsgLen hdr = nlmsgLen hdr'
  read : ∀ a k, RouteRead true hdr a k → Agree hdr hdr' a k

section Attributes

variable {hdr hdr' : Memory} {n : ℕ} {c c' : AttrCursor} {v : Option ℕ × Option ℕ}

theorem Rta.readsData_mono {rta : Rta} (h : rta.readsData false = true) :
    rta.readsData true = true := by
  cases rta with
  | iif => rfl
  | _ => exact h

theorem Rta.known_mono {rta : Rta} (h : rta.known false = true) : rta.known true = true := by
  cases rta with
  | iif => rfl
  | _ => exact h

/-- `RTM_DELROUTE` has a case for every other attribute. -/
theorem rtaSwitch_noIif {rta : Rta} (h : rta ≠ .iif) :
    rtaSwitch false rta = rtaSwitch true rta := by
  cases rta with
  | iif => exact absurd rfl h
  | _ => rfl

theorem goesOn_mono (h : goesOn false hdr c = true) : goesOn true hdr c = true := by
  unfold goesOn at h ⊢
  rw [Bool.and_eq_true] at h ⊢
  exact ⟨h.1, Rta.known_mono h.2⟩

theorem attrReads_mono {p : ℕ × ℕ} (h : p ∈ attrReads false hdr c) : p ∈ attrReads true hdr c := by
  unfold attrReads at h ⊢
  by_cases hread : (loadRta hdr c.cur_attr).readsData false = true
  · rw [if_pos hread] at h
    rw [if_pos (Rta.readsData_mono hread)]
    exact h
  · rw [if_neg hread] at h
    split_ifs at h ⊢ with hlen hok hread'
    · exact h
    · simp only [List.mem_cons, List.not_mem_nil, or_false] at h ⊢
      tauto
    · exact h
    · exact h

theorem visits_mono (h : Visits (goesOn false hdr) (rtaNext hdr) c c') :
    Visits (goesOn true hdr) (rtaNext hdr) c c' := by
  induction h with
  | start => exact .start
  | turn _ hgo ih => exact ih.turn (goesOn_mono hgo)

theorem routeRead_mono {a k : ℕ} (h : RouteRead false hdr a k) : RouteRead true hdr a k := by
  cases h with
  | field hlen hi => exact .field hlen hi
  | flags hlen => exact .flags hlen
  | attr hlen hn hv hm => exact .attr hlen hn (visits_mono hv) (attrReads_mono hm)

/-- Without an `RTA_IIF` the two loops do the same. -/
theorem attrLoop_noIif (h : ∀ c', Visits (goesOn true hdr) (rtaNext hdr) c c' →
      rtaOk hdr c' = true → loadRta hdr c'.cur_attr ≠ .iif) :
    (attrLoop false hdr n c).run v = (attrLoop true hdr n c).run v := by
  induction n generalizing c v with
  | zero => rfl
  | succ n ih =>
      cases hok : rtaOk hdr c with
      | false => rw [attrLoop_stop hok, attrLoop_stop hok]
      | true =>
          have hswitch := rtaSwitch_noIif (h c .start hok)
          rcases rtaSwitch_run true (loadRta hdr c.cur_attr) [] v with
            ⟨hknown, v', hrun, -⟩ | ⟨-, hrun, -⟩
          · rw [attrLoop_turn hok hrun, attrLoop_turn hok (hswitch ▸ hrun)]
            refine ih fun c' hv => h c' (hv.head ?_)
            rw [goesOn, hok, hknown]
            rfl
          · rw [attrLoop_unknown hok hrun, attrLoop_unknown hok (hswitch ▸ hrun)]

/-- At an `RTA_IIF` the loop of `RTM_DELROUTE` fails its assertion. -/
theorem attrLoop_iif (hv : Visits (goesOn true hdr) (rtaNext hdr) c c') (hok' : rtaOk hdr c' = true)
    (hiif : loadRta hdr c'.cur_attr = .iif) {u : AttrCursor} {w : Option ℕ × Option ℕ}
    (hrun : (attrLoop true hdr n c).run v = .ok (some u, w)) :
    (attrLoop false hdr n c).run v = .error .assert := by
  have hfails : ∀ {c n v}, rtaOk hdr c = true → loadRta hdr c.cur_attr = .iif →
      (attrLoop false hdr (n + 1) c).run v = .error .assert := fun hok hiif =>
    attrLoop_unknown hok (by rw [hiif]; rfl)
  induction n generalizing c v with
  | zero => cases hrun
  | succ n ih =>
      rcases hv.cases_head with rfl | ⟨hgo, hv⟩
      · exact hfails hok' hiif
      · obtain ⟨hok, hknown⟩ := Bool.and_eq_true_iff.mp hgo
        by_cases hi : loadRta hdr c.cur_attr = .iif
        · exact hfails hok hi
        · rcases rtaSwitch_run true (loadRta hdr c.cur_attr) [] v with
            ⟨-, v', hswitch, -⟩ | ⟨hno, -⟩
          · rw [attrLoop_turn hok hswitch] at hrun
            rw [attrLoop_turn hok (rtaSwitch_noIif hi ▸ hswitch)]
            exact ih hv hrun
          · rw [hknown] at hno
            cases hno

end Attributes

section Deletion

variable {hdr hdr' : Memory} {n : ℕ} {nl : NlId} {iifOk : Bool} {s s' : St}
  {edit : List RtEntry → ℕ → ℕ → ℕ → List RtEntry}

/-- The state after a request that has been acknowledged. -/
def St.routed (s : St) (nl : NlId) (rt : List RtEntry) : St :=
  { s with d := (s.d.setRoutes rt).push nl [.ack] }

theorem routeRequestAt_run {c : AttrCursor} {dst gw : ℕ} (hlen : ¬ nlmsgLen hdr ≤ 16)
    (hn : rtmNotify hdr = false)
    (hloop : (attrLoop iifOk hdr n (firstAttr hdr)).run (none, none) =
      .ok (some c, some dst, some gw)) :
    (routeRequestAt n nl hdr iifOk edit).run s =
      .ok ((), s.routed nl (edit s.d.rt dst (rtmDstLen hdr) gw)) := by
  unfold routeRequestAt
  rw [if_neg hlen, hn, hloop]
  rfl

theorem routeRequestAt_fails {e : Crash} (hlen : ¬ nlmsgLen hdr ≤ 16) (hn : rtmNotify hdr = false)
    (hloop : (attrLoop iifOk hdr n (firstAttr hdr)).run (none, none) = .error e) :
    (routeRequestAt n nl hdr iifOk edit).run s = .error e := by
  unfold routeRequestAt
  rw [if_neg hlen, hn, hloop]
  rfl

/-- A request is acknowledged only if the loop has found a destination and a gateway. -/
theorem routeRequestAt_ok (h : (routeRequestAt n nl hdr iifOk edit).run s = .ok ((), s')) :
    ¬ nlmsgLen hdr ≤ 16 ∧ rtmNotify hdr = false ∧ ∃ c dst gw,
      (attrLoop iifOk hdr n (firstAttr hdr)).run (none, none) = .ok (some c, some dst, some gw) ∧
      s' = s.routed nl (edit s.d.rt dst (rtmDstLen hdr) gw) := by
  unfold routeRequestAt at h
  by_cases hlen : nlmsgLen hdr ≤ 16
  · rw [if_pos hlen] at h
    cases h
  · rw [if_neg hlen] at h
    cases hn : rtmNotify hdr with
    | true =>
        rw [hn] at h
        cases h
    | false =>
        rw [hn] at h
        rcases hloop : (attrLoop iifOk hdr n (firstAttr hdr)).run (none, none) with
          e | ⟨_ | c, _ | dst, _ | gw⟩ <;> rw [hloop] at h <;> cases h
        exact ⟨hlen, rfl, c, dst, gw, rfl, rfl⟩

theorem processNlmsghdrAt_newRoute (hty : nlmsgType hdr = RTM_NEWROUTE) :
    (processNlmsghdrAt n nl hdr).run s =
      (routeRequestAt n nl hdr true RtEntry.addRoute).run s := by
  have hlink : RTM_NEWROUTE ≠ RTM_GETLINK := by decide
  have haddr : RTM_NEWROUTE ≠ RTM_GETADDR := by decide
  simp only [processNlmsghdrAt, hty, if_neg hlink, if_neg haddr, if_true,
    StateT.run_bind, StateT.run_get, pure_bind]

theorem processNlmsghdrAt_delRoute (hty : nlmsgType hdr = RTM_DELROUTE) :
    (processNlmsghdrAt n nl hdr).run s =
      (routeRequestAt n nl hdr false RtEntry.delRoute).run s := by
  have hlink : RTM_DELROUTE ≠ RTM_GETLINK := by decide
  have haddr : RTM_DELROUTE ≠ RTM_GETADDR := by decide
  have hnew : RTM_DELROUTE ≠ RTM_NEWROUTE := by decide
  simp only [processNlmsghdrAt, hty, if_neg hlink, if_neg haddr, if_neg hnew, if_true,
    StateT.run_bind, StateT.run_get, pure_bind]

/-- Whenever a payload has been acknowledged as an `RTM_NEWROUTE` request, the same payload is
acknowledged as an `RTM_DELROUTE` request, and leaves every table without the route and
with all its other entries, exactly if it has no `RTA_IIF`. -/
theorem newRoute_deletes {s₀ s₁ : St} {nl' : NlId} (ops : List RouteOp)
    (hty : nlmsgType hdr = RTM_NEWROUTE) (hty' : nlmsgType hdr' = RTM_DELROUTE)
    (hsame : SamePayload hdr hdr') (hadd : (processNlmsghdrAt n nl hdr).run s₀ = .ok ((), s₁))
    (hrt : s.d.rt = table ops) :
    (∃ dst gw s', s₁.d.rt = RtEntry.addRoute s₀.d.rt dst (rtmDstLen hdr) gw ∧
      (processNlmsghdrAt n nl' hdr').run s = .ok ((), s') ∧
      (s'.d.nls nl').replyQueue = (s.d.nls nl').replyQueue ++ [.ack] ∧
      s'.d.rt = s.d.rt.filter fun e => e.key ≠ (dst, rtmDstLen hdr)) ↔ ¬ HasIif hdr := by
  rw [processNlmsghdrAt_newRoute hty] at hadd
  obtain ⟨hlen, hn, c, dst, gw, hloop, rfl⟩ := routeRequestAt_ok hadd
  have hdel : (processNlmsghdrAt n nl' hdr').run s =
      (routeRequestAt n nl' hdr false RtEntry.delRoute).run s := by
    rw [processNlmsghdrAt_delRoute hty', ← routeRequestAt_congr hsame.len
      fun a k hread => hsame.read a k (routeRead_mono hread)]
  rw [hdel]
  constructor
  · rintro ⟨_, _, s', -, hrun, -⟩ ⟨c', hv, hok, hiif⟩
    rw [routeRequestAt_fails hlen hn (attrLoop_iif hv hok hiif hloop)] at hrun
    cases hrun
  · intro hno
    have hloop' := (attrLoop_noIif (v := (none, none)) (n := n) fun c' hv hok hiif =>
      hno ⟨c', hv, hok, hiif⟩).trans hloop
    refine ⟨dst, gw, _, rfl, routeRequestAt_run hlen hn hloop', ?_, ?_⟩
    · simp [St.routed, Data.push, Data.setNetlink, Data.setRoutes]
    · show RtEntry.delRoute s.d.rt dst (rtmDstLen hdr) gw = _
      exact delRoute_eq (hrt ▸ keyed_table ops)

end Deletion

/-! ### Two requests with the same payload -/

theorem RouteRead.behind_header {hdr : Memory} {iifOk : Bool} {a k : ℕ}
    (h : RouteRead iifOk hdr a k) : 16 ≤ a := by
  cases h with
  | field _ _ =>
      unfold amsg
      omega
  | flags _ =>
      unfold amsg
      omega
  | @attr c _ _ _ _ hv hm =>
      have hcur : 16 ≤ c.cur_attr := by
        refine hv.invariant (I := fun c => 16 ≤ c.cur_attr) (fun c h _ => ?_) ?_
        · exact h.trans (Nat.le_add_right _ _)
        · simp [firstAttr, amsg]
      unfold attrReads rtaData at hm
      split_ifs at hm <;>
        simp only [List.mem_cons, Prod.mk.injEq, List.not_mem_nil, or_false] at hm <;> omega

/-- If the request does not read behind its end, its own bytes decide. -/
theorem Contained.samePayload {hdr hdr' : Memory} (h : Contained true hdr)
    (hlen : nlmsgLen hdr = nlmsgLen hdr')
    (hpayload : ∀ i, 16 ≤ i → i < nlmsgLen hdr → hdr i = hdr' i) : SamePayload hdr hdr' where
  len := hlen
  read _ _ hread i hi hik :=
    hpayload i (hread.behind_header.trans hi) (hik.trans_le (h.reads_inside hread))

/-- A message for 10.1.0.0/16 via 10.0.0.2 with another attribute of four bytes. -/
def routeMessage (nlmsg_type rta_type : UInt8) : Memory :=
  buffer ([52, 0, 0, 0, nlmsg_type, 0, 5, 0, 1, 0, 0, 0, 0, 0, 0, 0] ++
    [2, 16, 0, 0, 254, 4, 0, 1, 0, 0, 0, 0] ++
    [8, 0, 1, 0, 10, 1, 0, 0, 8, 0, rta_type, 0, 1, 0, 0, 0, 8, 0, 5, 0, 10, 0, 0, 2]) fun _ => 0

/-- The two messages differ in their type only. -/
theorem routeMessage_type (rta_type : UInt8) {i : ℕ} (hi : i ≠ 4) :
    routeMessage 24 rta_type i = routeMessage 25 rta_type i := by
  match i with
  | 0 => rfl
  | 1 => rfl
  | 2 => rfl
  | 3 => rfl
  | 4 => exact absurd rfl hi
  | _ + 5 => rfl

theorem routeMessage_samePayload (rta_type : UInt8) :
    SamePayload (routeMessage 24 rta_type) (routeMessage 25 rta_type) where
  len := word_congr fun i _ hi => routeMessage_type rta_type (by omega)
  read a _ hread i hi _ := by
    have hge := hread.behind_header
    exact routeMessage_type rta_type (by omega)

/-- With an `RTA_OIF` between them. -/
theorem newRoute_deletes_oif :
    let s := St.initial {} (Env.script [] [])
    ∃ s₁, (processNlmsghdrAt 4 0 (routeMessage 24 4)).run s = .ok ((), s₁) ∧
      ((∃ dst gw s', s₁.d.rt = RtEntry.addRoute s.d.rt dst (rtmDstLen (routeMessage 24 4)) gw ∧
        (processNlmsghdrAt 4 0 (routeMessage 25 4)).run s = .ok ((), s') ∧
        (s'.d.nls 0).replyQueue = (s.d.nls 0).replyQueue ++ [.ack] ∧
        s'.d.rt = s.d.rt.filter fun e => e.key ≠ (dst, rtmDstLen (routeMessage 24 4))) ↔
      ¬ HasIif (routeMessage 24 4)) := by
  intro s
  have hload : loadNlmsg 4 (routeMessage 24 4) =
      some (.newRoute (some ⟨16, false, [.dst 0x0a010000, .oif, .gateway 0x0a000002]⟩)) := by
    decide +kernel
  have hadd : (processNlmsghdrAt 4 0 (routeMessage 24 4)).run s =
      .ok ((), s.routed 0 [⟨0x0a010000, 16, 0x0a000002⟩]) := by
    rw [processNlmsghdrAt_eq hload]
    rfl
  exact ⟨_, hadd, newRoute_deletes [] (by decide +kernel) (by decide +kernel)
    (routeMessage_samePayload 4) hadd rfl⟩

/-- With an `RTA_IIF` the route is added, and the request that deletes it fails an assertion. -/
theorem delRoute_iif_fails :
    let s := St.initial {} (Env.script [] [])
    SamePayload (routeMessage 24 3) (routeMessage 25 3) ∧
    nlmsgType (routeMessage 24 3) = RTM_NEWROUTE ∧ nlmsgType (routeMessage 25 3) = RTM_DELROUTE ∧
    ∃ s₁, (processNlmsghdrAt 4 0 (routeMessage 24 3)).run s = .ok ((), s₁) ∧
      s₁.d.rt = [⟨0x0a010000, 16, 0x0a000002⟩] ∧ (s₁.d.nls 0).replyQueue = [.ack] ∧
      (processNlmsghdrAt 4 0 (routeMessage 25 3)).run s₁ = .error .assert := by
  intro s
  have hload : loadNlmsg 4 (routeMessage 24 3) =
      some (.newRoute (some ⟨16, false, [.dst 0x0a010000, .iif, .gateway 0x0a000002]⟩)) := by
    decide +kernel
  have hload' : loadNlmsg 4 (routeMessage 25 3) =
      some (.delRoute (some ⟨16, false, [.dst 0x0a010000, .iif]⟩)) := by
    decide +kernel
  refine ⟨routeMessage_samePayload 3, by decide +kernel, by decide +kernel,
    s.routed 0 [⟨0x0a010000, 16, 0x0a000002⟩], ?_, rfl, rfl, ?_⟩
  · rw [processNlmsghdrAt_eq hload]
    rfl
  · rw [processNlmsghdrAt_eq hload']
    rfl

end Grail
