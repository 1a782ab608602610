import Grail.RouteAttrs

/-! # Well-formed route requests

`NewRoute` is an `RTM_NEWROUTE` request as a routing daemon builds it: any header, any `rtmsg`,
and a list of attributes with payloads of 4 bytes.  Its bytes are read back as the attributes it
was made of (`loadAttrs_encode`), of which the last destination and the last gateway count
(`routeAttrs_last`); so the request adds one route and is acknowledged (`newRoute_adds`). -/

namespace Grail

open Programs Bytes Loops Libnl

/-! ### Requests -/

/-- The attributes of a request, with an address or an integer as payload. -/
inductive RouteAttr where
  | dst (addr : UInt32)
  | gateway (addr : UInt32)
  | src (addr : UInt32)
  | priority (value : UInt32)
  | oif (value : UInt32)
  | iif (value : UInt32)
deriving DecidableEq, Repr

namespace RouteAttr

def rta_type : RouteAttr → ℕ
  | dst _ => RTA_DST
  | gateway _ => RTA_GATEWAY
  | src _ => RTA_SRC
  | priority _ => RTA_PRIORITY
  | oif _ => RTA_OIF
  | iif _ => RTA_IIF

/-- Addresses are in network order, integers in the order of the host. -/
def data : RouteAttr → List UInt8
  | dst addr => toBytesBE 4 addr.toNat
  | gateway addr => toBytesBE 4 addr.toNat
  | src addr => toBytesBE 4 addr.toNat
  | priority value => toBytes 4 value.toNat
  | oif value => toBytes 4 value.toNat
  | iif value => toBytes 4 value.toNat

/-- `rta_len`, `rta_type` and the payload; 8 bytes need no padding. -/
def encode (a : RouteAttr) : List UInt8 := toBytes 2 8 ++ (toBytes 2 a.rta_type ++ a.data)

/-- What the loop over the attributes sees. -/
def rta : RouteAttr → Rta
  | dst addr => .dst addr.toNat
  | gateway addr => .gateway addr.toNat
  | src _ => .src
  | priority _ => .priority
  | oif _ => .oif
  | iif _ => .iif

def dst? : RouteAttr → Option UInt32
  | dst addr => some addr
  | _ => none

def gateway? : RouteAttr → Option UInt32
  | gateway addr => some addr
  | _ => none

end RouteAttr

/-- An `RTM_NEWROUTE` request. -/
structure NewRoute where
  nlmsg_flags : UInt16
  nlmsg_seq : UInt32
  nlmsg_pid : UInt32
  rtm_family : UInt8
  rtm_dst_len : UInt8
  rtm_src_len : UInt8
  rtm_tos : UInt8
  rtm_table : UInt8
  rtm_protocol : UInt8
  rtm_scope : UInt8
  rtm_type : UInt8
  rtm_flags : UInt32
  attrs : List RouteAttr
  /-- the length fits into `nlmsg_len` -/
  length_lt : 28 + 8 * attrs.length < 2 ^ 32

namespace NewRoute

def nlmsghdr (r : NewRoute) : List UInt8 :=
  toBytes 4 (28 + 8 * r.attrs.length) ++ (toBytes 2 RTM_NEWROUTE ++
    (toBytes 2 r.nlmsg_flags.toNat ++ (toBytes 4 r.nlmsg_seq.toNat ++ toBytes 4 r.nlmsg_pid.toNat)))

def rtmsg (r : NewRoute) : List UInt8 :=
  [r.rtm_family, r.rtm_dst_len, r.rtm_src_len, r.rtm_tos, r.rtm_table, r.rtm_protocol,
    r.rtm_scope, r.rtm_type] ++ toBytes 4 r.rtm_flags.toNat

def encode (r : NewRoute) : List UInt8 :=
  r.nlmsghdr ++ (r.rtmsg ++ r.attrs.flatMap RouteAttr.encode)

/-- The last `RTA_DST`. -/
def lastDst (r : NewRoute) : Option UInt32 := (r.attrs.filterMap RouteAttr.dst?).getLast?

/-- The last `RTA_GATEWAY`. -/
def lastGateway (r : NewRoute) : Option UInt32 := (r.attrs.filterMap RouteAttr.gateway?).getLast?

end NewRoute

/-! ### Reading a request -/

@[simp] theorem RouteAttr.length_encode (a : RouteAttr) : a.encode.length = 8 := by
  unfold encode
  rw [List.length_append, List.length_append, length_toBytes, length_toBytes]
  cases a <;> simp [data]

theorem RouteAttr.rta_type_lt (a : RouteAttr) : a.rta_type < 256 ^ 2 := by
  cases a <;> norm_num [rta_type, RTA_DST, RTA_GATEWAY, RTA_SRC, RTA_PRIORITY, RTA_OIF, RTA_IIF]

theorem uint32_lt (x : UInt32) : x.toNat < 256 ^ 4 := x.toNat_lt

/-- An attribute in memory is read back. -/
theorem RouteAttr.load {hdr : Memory} {a : ℕ} {attr : RouteAttr} (h : Holds hdr a attr.encode) :
    rtaLen hdr a = 8 ∧ loadRta hdr a = attr.rta := by
  obtain ⟨hlen, h⟩ := holds_append.mp h
  obtain ⟨htype, hdata⟩ := holds_append.mp h
  rw [length_toBytes] at htype hdata
  rw [length_toBytes] at hdata
  have hty : rtaType hdr a = attr.rta_type := htype.word_toBytes attr.rta_type_lt
  refine ⟨hlen.word_toBytes (by decide), ?_⟩
  unfold loadRta
  rw [hty]
  cases attr with
  | dst addr =>
      have hw : wordBE hdr 4 (rtaData a) = addr.toNat := hdata.wordBE_toBytesBE (uint32_lt addr)
      simp [rta_type, rta, hw]
  | gateway addr =>
      have hw : wordBE hdr 4 (rtaData a) = addr.toNat := hdata.wordBE_toBytesBE (uint32_lt addr)
      simp [rta_type, rta, hw, RTA_DST, RTA_SRC, RTA_GATEWAY]
  | src addr => rfl
  | priority value => rfl
  | oif value => rfl
  | iif value => rfl

theorem RouteAttr.known (a : RouteAttr) : a.rta.known true = true := by
  cases a <;> rfl

/-- The loop comes to the attributes of the request, in their order. -/
theorem loadAttrs_encode {hdr : Memory} {attrs : List RouteAttr} {a n : ℕ}
    (h : Holds hdr a (attrs.flatMap RouteAttr.encode)) (hlt : 8 * attrs.length < 2 ^ 64)
    (hn : attrs.length < n) :
    loadAttrs true hdr n ⟨a, 8 * attrs.length⟩ = some (attrs.map RouteAttr.rta) := by
  induction attrs generalizing a n with
  | nil =>
      obtain ⟨n, rfl⟩ : ∃ n', n = n' + 1 := ⟨n - 1, by omega⟩
      rfl
  | cons attr attrs ih =>
      obtain ⟨n, rfl⟩ : ∃ n', n = n' + 1 := ⟨n - 1, by omega⟩
      rw [List.flatMap_cons] at h
      obtain ⟨hattr, hrest⟩ := holds_append.mp h
      obtain ⟨hlen, hload⟩ := RouteAttr.load hattr
      rw [attr.length_encode] at hrest
      rw [List.length_cons] at hlt hn ⊢
      have hal : align4 (rtaLen hdr a) = 8 := by rw [hlen]; rfl
      have hok : rtaOk hdr ⟨a, 8 * (attrs.length + 1)⟩ = true := by
        rw [rtaOk_iff]
        simp only [hlen]
        omega
      have hnext : rtaNext hdr ⟨a, 8 * (attrs.length + 1)⟩ = ⟨a + 8, 8 * attrs.length⟩ := by
        rw [rtaNext_eq hlt (by omega), hal, AttrCursor.mk.injEq]
        omega
      rw [loadAttrs, if_pos hok, hload, if_pos attr.known, hnext, ih hrest (by omega) (by omega)]
      rfl

theorem getLast?_cons_or (addr : UInt32) (addrs : List UInt32) (v : Option ℕ) :
    ((addr :: addrs).getLast?.map UInt32.toNat).or v =
      (addrs.getLast?.map UInt32.toNat).or (some addr.toNat) := by
  rw [List.getLast?_cons]
  cases addrs.getLast? <;> rfl

/-- The last destination and the last gateway count. -/
theorem routeAttrs_last (attrs : List RouteAttr) (v : Option ℕ × Option ℕ) :
    routeAttrs true (attrs.map RouteAttr.rta) v =
      .ok (((attrs.filterMap RouteAttr.dst?).getLast?.map UInt32.toNat).or v.1,
        ((attrs.filterMap RouteAttr.gateway?).getLast?.map UInt32.toNat).or v.2) := by
  induction attrs generalizing v with
  | nil => rfl
  | cons attr attrs ih =>
      obtain ⟨dst, gw⟩ := v
      cases attr with
      | dst addr =>
          rw [List.map_cons, RouteAttr.rta, routeAttrs, ih, ← getLast?_cons_or addr _ dst]
          rfl
      | gateway addr =>
          rw [List.map_cons, RouteAttr.rta, routeAttrs, ih, ← getLast?_cons_or addr _ gw]
          rfl
      | src addr => exact ih (dst, gw)
      | priority value => exact ih (dst, gw)
      | oif value => exact ih (dst, gw)
      | iif value => exact ih (dst, gw)

/-- The bytes of a request are read as the request. -/
theorem NewRoute.load {hdr : Memory} {r : NewRoute} (h : Holds hdr 0 r.encode)
    (hn : r.rtm_flags.toNat &&& RTM_F_NOTIFY = 0) {n : ℕ} (hlt : r.attrs.length < n) :
    loadNlmsg n hdr =
      some (.newRoute (some ⟨r.rtm_dst_len.toNat, false, r.attrs.map RouteAttr.rta⟩)) := by
  have hlen := r.length_lt
  obtain ⟨hhdr, h⟩ := holds_append.mp h
  obtain ⟨hmsg, hattrs⟩ := holds_append.mp h
  have h16 : r.nlmsghdr.length = 16 := by simp [nlmsghdr]
  have h12 : r.rtmsg.length = 12 := by simp [rtmsg]
  rw [h16] at hmsg hattrs
  rw [h12] at hattrs
  obtain ⟨hl, hhdr⟩ := holds_append.mp hhdr
  obtain ⟨hty, -⟩ := holds_append.mp hhdr
  rw [length_toBytes] at hty
  have hl : nlmsgLen hdr = 28 + 8 * r.attrs.length := hl.word_toBytes (by omega)
  have hty : nlmsgType hdr = RTM_NEWROUTE := hty.word_toBytes (by decide)
  obtain ⟨hfields, hflags⟩ := holds_append.mp hmsg
  have hflags : rtmFlags hdr = r.rtm_flags.toNat := hflags.word_toBytes (uint32_lt _)
  have hdst : rtmDstLen hdr = r.rtm_dst_len.toNat := by
    have hb : hdr (0 + 16 + 1) = r.rtm_dst_len := holds_iff.mp hfields 1 (by simp)
    rw [rtmDstLen, word_one, amsg, ← hb]
  have hnotify : rtmNotify hdr = false := by
    rw [rtmNotify, hflags, hn]
    rfl
  have hfirst : firstAttr hdr = ⟨0 + 16 + 12, 8 * r.attrs.length⟩ := by
    simp only [firstAttr, amsg, hl, AttrCursor.mk.injEq, true_and]
    omega
  have hload := loadAttrs_encode hattrs (by omega) hlt
  rw [← hfirst] at hload
  have h16' : ¬ nlmsgLen hdr ≤ 16 := by omega
  have hroute : loadRtMsg true n hdr =
      some (some ⟨r.rtm_dst_len.toNat, false, r.attrs.map RouteAttr.rta⟩) := by
    rw [loadRtMsg, if_neg h16', hnotify, if_neg Bool.false_ne_true, hload, hdst]
    rfl
  simp only [loadNlmsg, hty, hroute]
  rfl

/-! ### The request -/

/-- A well-formed request for the destination `d` and the gateway `g` adds the route and is
acknowledged, and nothing else changes. -/
theorem newRoute_adds {r : NewRoute} {d g : UInt32} {hdr : Memory} (h : Holds hdr 0 r.encode)
    (hn : r.rtm_flags.toNat &&& RTM_F_NOTIFY = 0) (hd : r.lastDst = some d)
    (hg : r.lastGateway = some g) (nl : NlId) (s : St) {n : ℕ} (hlt : r.attrs.length < n) :
    (processNlmsghdrAt n nl hdr).run s = .ok ((), { s with
      d := (s.d.setRoutes (RtEntry.addRoute s.d.rt d.toNat r.rtm_dst_len.toNat g.toNat)).push nl [.ack] }) := by
  unfold NewRoute.lastDst at hd
  unfold NewRoute.lastGateway at hg
  have hattrs := routeAttrs_last r.attrs (none, none)
  rw [hd, hg] at hattrs
  have hattrs : routeAttrs true (r.attrs.map RouteAttr.rta) (none, none) =
    .ok (some d.toNat, some g.toNat) := hattrs
  rw [processNlmsghdrAt_eq (NewRoute.load h hn hlt)]
  simp only [processNlmsghdr, routeRequest, hattrs]
  rfl

/-- A request for 10.1.0.0/16 that names two gateways. -/
def twoGateways : NewRoute where
  nlmsg_flags := 0x505
  nlmsg_seq := 7
  nlmsg_pid := 0
  rtm_family := 2
  rtm_dst_len := 16
  rtm_src_len := 0
  rtm_tos := 0
  rtm_table := 254
  rtm_protocol := 4
  rtm_scope := 0
  rtm_type := 1
  rtm_flags := 0
  attrs := [.gateway 0x0a000001, .oif 1, .dst 0x0a010000, .gateway 0x0a000002]
  length_lt := by decide

theorem newRoute_adds_twoGateways :
    let s := St.initial {} (Env.script [] [])
    (processNlmsghdrAt 5 0 (buffer twoGateways.encode fun _ => 0)).run s = .ok ((), { s with
      d := (s.d.setRoutes (RtEntry.addRoute s.d.rt 0x0a010000 16 0x0a000002)).push 0 [.ack] }) :=
  newRoute_adds (r := twoGateways) (d := 0x0a010000) (g := 0x0a000002) (buffer_holds _ _)
    (by decide) (by decide) (by decide) 0 _ (by decide)

end Grail
