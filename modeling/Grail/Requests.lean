import Grail.Libnl
import Grail.Netlink

/-! # Netlink requests as bytes

`HandleSendMsg`, `HandleSendTo` and `ProcessNlmsghdr` on the bytes that the tracee sends.  A
`Buffer` is the emulator's copy of a buffer of the tracee, together with the memory of the host
that lies beyond the copy.  A pointer `hdr` is the memory it leads to; the pointers of a message
are offsets from its header.

`attrLoop` is the loop over the attributes of a route message, which is left after `n` turns at
the latest (`Crash.hang`): the remaining length is a `size_t`, which the loop can decrease below
zero, so nothing bounds the number of turns.  `processNlmsghdrAt_eq` connects these definitions
with those of `Grail.Netlink`: whenever the bytes can be read as a message (`loadNlmsg`), they
are processed as that message. -/

namespace Grail

open Programs Bytes Loops Libnl

/-! ### Constants of rtnetlink -/

def RTM_GETLINK : ℕ := 18
def RTM_GETADDR : ℕ := 22
def RTM_NEWROUTE : ℕ := 24
def RTM_DELROUTE : ℕ := 25
def NLM_F_ROOT : ℕ := 0x100
def RTM_F_NOTIFY : ℕ := 0x100

def RTA_DST : ℕ := 1
def RTA_SRC : ℕ := 2
def RTA_IIF : ℕ := 3
def RTA_OIF : ℕ := 4
def RTA_GATEWAY : ℕ := 5
def RTA_PRIORITY : ℕ := 6

/-! ### `struct rtattr` -/

def rtaLen (m : Memory) (rta : ℕ) : ℕ := word m 2 rta

def rtaType (m : Memory) (rta : ℕ) : ℕ := word m 2 (rta + 2)

/-- `RTA_DATA(rta)`. -/
def rtaData (rta : ℕ) : ℕ := rta + 4

/-- The variables `cur_attr` and `rbuflen`, which is a `size_t`. -/
structure AttrCursor where
  cur_attr : ℕ
  rbuflen : ℕ
deriving DecidableEq, Repr

/-- `RTA_OK(cur_attr, rbuflen)`. -/
def rtaOk (m : Memory) (c : AttrCursor) : Bool :=
  decide (4 ≤ c.rbuflen) && decide (4 ≤ rtaLen m c.cur_attr) &&
    decide (rtaLen m c.cur_attr ≤ c.rbuflen)

/-- `cur_attr = RTA_NEXT(cur_attr, rbuflen)`. -/
def rtaNext (m : Memory) (c : AttrCursor) : AttrCursor :=
  let n := align4 (rtaLen m c.cur_attr)
  ⟨c.cur_attr + n, (c.rbuflen + 2 ^ 64 - n) % 2 ^ 64⟩

/-- The attribute at `rta`; the address of `RTA_DST` and `RTA_GATEWAY` is in network order. -/
def loadRta (m : Memory) (rta : ℕ) : Rta :=
  let t := rtaType m rta
  if t = RTA_DST then .dst (wordBE m 4 (rtaData rta))
  else if t = RTA_SRC then .src
  else if t = RTA_GATEWAY then .gateway (wordBE m 4 (rtaData rta))
  else if t = RTA_PRIORITY then .priority
  else if t = RTA_OIF then .oif
  else if t = RTA_IIF then .iif
  else .other t

/-- The attributes that the `switch` of the loop has a case for. -/
def Rta.known (iifOk : Bool) : Rta → Bool
  | .iif => iifOk
  | .other _ => false
  | _ => true

/-- The `switch` of the loop, which assigns `dst` and `gw`. -/
def rtaSwitch (iifOk : Bool) (rta : Rta) : Program (Option ℕ × Option ℕ) Crash Unit :=
  match rta with
  | .dst a => modify fun v => (some a, v.2)
  | .gateway a => modify fun v => (v.1, some a)
  | rta => if rta.known iifOk then pure () else throw .assert

/-- `while(RTA_OK(cur_attr, rbuflen)) { ... cur_attr = RTA_NEXT(cur_attr, rbuflen); }`. -/
def attrLoop (iifOk : Bool) (m : Memory) (n : ℕ) (c : AttrCursor) :
    Program (Option ℕ × Option ℕ) Crash (Option AttrCursor) :=
  whileLoop (rtaOk m) (rtaNext m) (fun c => rtaSwitch iifOk (loadRta m c.cur_attr)) n c

/-! ### `struct rtmsg` -/

/-- `NLMSG_DATA(hdr)`. -/
def amsg : ℕ := 16

def rtmDstLen (hdr : Memory) : ℕ := word hdr 1 (amsg + 1)

def rtmFlags (hdr : Memory) : ℕ := word hdr 4 (amsg + 8)

/-- `amsg->rtm_flags & RTM_F_NOTIFY`. -/
def rtmNotify (hdr : Memory) : Bool := rtmFlags hdr &&& RTM_F_NOTIFY ≠ 0

/-- The first attribute, `amsg+1`, and `hdr->nlmsg_len - NLMSG_LENGTH(sizeof(rtmsg))`. -/
def firstAttr (hdr : Memory) : AttrCursor :=
  ⟨amsg + 12, (nlmsgLen hdr + 2 ^ 64 - 28) % 2 ^ 64⟩

/-! ### `ProcessNlmsghdr` -/

/-- `RTM_NEWROUTE` and `RTM_DELROUTE`. -/
def routeRequestAt (n : ℕ) (nl : NlId) (hdr : Memory) (iifOk : Bool)
    (edit : List RtEntry → ℕ → ℕ → ℕ → List RtEntry) : M Unit := do
  if nlmsgLen hdr ≤ 16 then throw .assert
  if rtmNotify hdr then throw .assert
  match (attrLoop iifOk hdr n (firstAttr hdr)).run (none, none) with
  | .error e => throw e
  | .ok (none, _) => throw .hang
  | .ok (some _, some dst, some gw) => do
      modifyData fun d => d.setRoutes (edit d.rt dst (rtmDstLen hdr) gw)
      pushReplies nl [.ack]
  | .ok _ => throw .assert

/-- `hdr->nlmsg_flags & NLM_F_ROOT`. -/
def nlmsgRoot (hdr : Memory) : Bool := nlmsgFlags hdr &&& NLM_F_ROOT ≠ 0

/-- `ProcessNlmsghdr(hdr)`. -/
def processNlmsghdrAt (n : ℕ) (nl : NlId) (hdr : Memory) : M Unit := do
  let devices := (← get).c.app.devices
  let nlmsg_type := nlmsgType hdr
  if nlmsg_type = RTM_GETLINK then
    dumpRequest nl (nlmsgRoot hdr) (linkReplies 0 ⟨0, 0, 0⟩ devices)
  else if nlmsg_type = RTM_GETADDR then
    dumpRequest nl (nlmsgRoot hdr) (addrReplies 0 devices)
  else if nlmsg_type = RTM_NEWROUTE then routeRequestAt n nl hdr true RtEntry.addRoute
  else if nlmsg_type = RTM_DELROUTE then routeRequestAt n nl hdr false RtEntry.delRoute
  else throw .exit1

/-! ### `HandleSendMsg` and `HandleSendTo` -/

/-- The copy of a buffer of the tracee. -/
structure Buffer where
  bytes : List UInt8
  /-- the memory of the host behind the copy -/
  beyond : Memory

def Buffer.memory (b : Buffer) : Memory := buffer b.bytes b.beyond

/-- The variables of the message loop before its first turn. -/
def Buffer.start (b : Buffer) : Cursor := ⟨0, b.bytes.length⟩

/-- `while(nlmsg_ok(hdr, len)) { ProcessNlmsghdr(hdr); hdr = nlmsg_next(hdr, (int*)&len); }`. -/
def messageLoop {m : Type → Type} [Monad m] (process : ℕ → m Unit) (b : Buffer) (n : ℕ) :
    m (Option Cursor) :=
  whileLoop (okAt b.memory) (nextAt b.memory) (fun c => process c.hdr) n b.start

/-- The messages of a buffer are processed; the result is the value of `len` after the loop. -/
def processBuffer (n : ℕ) (nl : NlId) (b : Buffer) : M ℕ := do
  let process := fun hdr => processNlmsghdrAt n nl (shift b.memory hdr)
  match ← messageLoop process b (b.bytes.length + 1) with
  | none => throw .hang
  | some c => return c.len

/-- The loop over the I/O vector; the result is `total_bytes`. -/
def sendMsgLoop (n : ℕ) (nl : NlId) : ℕ → List Buffer → M ℕ
  | total_bytes, [] => return total_bytes
  | total_bytes, b :: bs => do
      let _ ← processBuffer n nl b
      sendMsgLoop n nl (total_bytes + b.bytes.length) bs

/-- The answer of `HandleSendMsg`. -/
def sendMsgAt (n : ℕ) (nl : NlId) (msg_iov : List Buffer) : M ℕ := sendMsgLoop n nl 0 msg_iov

/-- The answer of `HandleSendTo`: the loop decrements `len`. -/
def sendToAt (n : ℕ) (nl : NlId) (buf : Buffer) (flags : ℤ) : M ℕ := do
  if flags ≠ 0 then throw .assert
  processBuffer n nl buf

def nlHandleSendMsgAt (n : ℕ) (nl : NlId) (msg_iov : List Buffer) :
    M SyscallHandlerStatusCode := do
  let total_bytes ← sendMsgAt n nl msg_iov
  nlFake nl total_bytes .success

def nlHandleSendToAt (n : ℕ) (nl : NlId) (buf : Buffer) (flags : ℤ) :
    M SyscallHandlerStatusCode := do
  let len ← sendToAt n nl buf flags
  nlFake nl len .success

/-! ### The messages that the bytes stand for -/

/-- The attributes that the loop comes to; it ends at one that the `switch` has no case for. -/
def loadAttrs (iifOk : Bool) (hdr : Memory) : ℕ → AttrCursor → Option (List Rta)
  | 0, _ => none
  | n + 1, c =>
      if rtaOk hdr c then
        if (loadRta hdr c.cur_attr).known iifOk then
          (loadAttrs iifOk hdr n (rtaNext hdr c)).map (loadRta hdr c.cur_attr :: ·)
        else some [loadRta hdr c.cur_attr]
      else some []

def loadRtMsg (iifOk : Bool) (n : ℕ) (hdr : Memory) : Option (Option RtMsg) :=
  if nlmsgLen hdr ≤ 16 then some none
  else if rtmNotify hdr then some (some ⟨rtmDstLen hdr, true, []⟩)
  else (loadAttrs iifOk hdr n (firstAttr hdr)).map fun attrs => some ⟨rtmDstLen hdr, false, attrs⟩

/-- The message at `hdr`, if the loop over its attributes ends within `n` turns. -/
def loadNlmsg (n : ℕ) (hdr : Memory) : Option Nlmsg :=
  let nlmsg_type := nlmsgType hdr
  if nlmsg_type = RTM_GETLINK then some (.getLink (nlmsgRoot hdr))
  else if nlmsg_type = RTM_GETADDR then some (.getAddr (nlmsgRoot hdr))
  else if nlmsg_type = RTM_NEWROUTE then (loadRtMsg true n hdr).map .newRoute
  else if nlmsg_type = RTM_DELROUTE then (loadRtMsg false n hdr).map .delRoute
  else some (.other nlmsg_type)

/-- What the `switch` does with one attribute is what `routeAttrs` does with it. -/
theorem rtaSwitch_run (iifOk : Bool) (rta : Rta) (rest : List Rta) (v : Option ℕ × Option ℕ) :
    rta.known iifOk = true ∧ (∃ v', (rtaSwitch iifOk rta).run v = .ok ((), v') ∧
      routeAttrs iifOk (rta :: rest) v = routeAttrs iifOk rest v') ∨
    rta.known iifOk = false ∧ (rtaSwitch iifOk rta).run v = .error .assert ∧
      routeAttrs iifOk (rta :: rest) v = .error .assert := by
  obtain ⟨dst, gw⟩ := v
  cases rta with
  | dst a => exact Or.inl ⟨rfl, _, rfl, rfl⟩
  | gateway a => exact Or.inl ⟨rfl, _, rfl, rfl⟩
  | src => exact Or.inl ⟨rfl, _, rfl, rfl⟩
  | priority => exact Or.inl ⟨rfl, _, rfl, rfl⟩
  | oif => exact Or.inl ⟨rfl, _, rfl, rfl⟩
  | iif =>
      cases iifOk with
      | true => exact Or.inl ⟨rfl, _, rfl, rfl⟩
      | false => exact Or.inr ⟨rfl, rfl, rfl⟩
  | other t => exact Or.inr ⟨rfl, rfl, rfl⟩

/-- One turn of the loop in which the `switch` has a case for the attribute. -/
theorem attrLoop_turn {iifOk : Bool} {hdr : Memory} {n : ℕ} {c : AttrCursor}
    {v v' : Option ℕ × Option ℕ} (hok : rtaOk hdr c = true)
    (hv : (rtaSwitch iifOk (loadRta hdr c.cur_attr)).run v = .ok ((), v')) :
    (attrLoop iifOk hdr (n + 1) c).run v = (attrLoop iifOk hdr n (rtaNext hdr c)).run v' := by
  rw [attrLoop, whileLoop_turn n hok, StateT.run_bind, hv]
  rfl

theorem attrLoop_unknown {iifOk : Bool} {hdr : Memory} {n : ℕ} {c : AttrCursor} {e : Crash}
    {v : Option ℕ × Option ℕ} (hok : rtaOk hdr c = true)
    (hv : (rtaSwitch iifOk (loadRta hdr c.cur_attr)).run v = .error e) :
    (attrLoop iifOk hdr (n + 1) c).run v = .error e := by
  rw [attrLoop, whileLoop_turn n hok, StateT.run_bind, hv]
  rfl

theorem attrLoop_stop {iifOk : Bool} {hdr : Memory} {n : ℕ} {c : AttrCursor}
    {v : Option ℕ × Option ℕ} (hok : rtaOk hdr c = false) :
    (attrLoop iifOk hdr (n + 1) c).run v = .ok (some c, v) := by
  rw [attrLoop, whileLoop_stop n hok]
  rfl

/-- The loop finds the destination and the gateway that the list of attributes has. -/
theorem attrLoop_of_load {iifOk : Bool} {hdr : Memory} {n : ℕ} {c : AttrCursor}
    {attrs : List Rta} (h : loadAttrs iifOk hdr n c = some attrs) (v : Option ℕ × Option ℕ) :
    ∃ c', (attrLoop iifOk hdr n c).run v = (routeAttrs iifOk attrs v).map fun v' => (some c', v') := by
  induction n generalizing c attrs v with
  | zero => cases h
  | succ n ih =>
      rw [loadAttrs] at h
      split_ifs at h with hok hknown
      · obtain ⟨rest, hrest, rfl⟩ := Option.map_eq_some_iff.mp h
        rcases rtaSwitch_run iifOk (loadRta hdr c.cur_attr) rest v with
          ⟨_, v', hrun, hattrs⟩ | ⟨hno, _⟩
        · obtain ⟨c', hc'⟩ := ih hrest v'
          exact ⟨c', by rw [attrLoop_turn hok hrun, hc', hattrs]⟩
        · rw [hknown] at hno
          cases hno
      · cases h
        rcases rtaSwitch_run iifOk (loadRta hdr c.cur_attr) [] v with
          ⟨hyes, _⟩ | ⟨_, hrun, hattrs⟩
        · exact absurd hyes hknown
        · exact ⟨c, by rw [attrLoop_unknown hok hrun, hattrs]; rfl⟩
      · cases h
        exact ⟨c, attrLoop_stop (Bool.eq_false_iff.mpr hok)⟩

theorem routeRequestAt_eq {n : ℕ} {hdr : Memory} {iifOk : Bool} {body : Option RtMsg}
    (h : loadRtMsg iifOk n hdr = some body) (nl : NlId)
    (edit : List RtEntry → ℕ → ℕ → ℕ → List RtEntry) :
    routeRequestAt n nl hdr iifOk edit = routeRequest nl iifOk edit body := by
  unfold loadRtMsg at h
  unfold routeRequestAt routeRequest
  split_ifs at h with hlen hnotify
  · cases h
    rw [if_pos hlen]
    rfl
  · cases h
    rw [if_neg hlen, if_pos hnotify]
    rfl
  · obtain ⟨attrs, hattrs, rfl⟩ := Option.map_eq_some_iff.mp h
    obtain ⟨c', hc'⟩ := attrLoop_of_load hattrs (none, none)
    rw [if_neg hlen, if_neg hnotify, hc']
    simp only [Bool.false_eq_true, if_false]
    rcases routeAttrs iifOk attrs (none, none) with e | ⟨_ | dst, _ | gw⟩ <;> rfl

/-- The bytes are processed as the message that they stand for. -/
theorem processNlmsghdrAt_eq {n : ℕ} {hdr : Memory} {msg : Nlmsg}
    (h : loadNlmsg n hdr = some msg) (nl : NlId) :
    processNlmsghdrAt n nl hdr = processNlmsghdr nl msg := by
  unfold loadNlmsg at h
  unfold processNlmsghdrAt processNlmsghdr
  simp only at h ⊢
  split_ifs at h with h₁ h₂ h₃ h₄
  · cases h
    simp only [if_pos h₁]
  · cases h
    simp only [if_neg h₁, if_pos h₂]
  · obtain ⟨body, hbody, rfl⟩ := Option.map_eq_some_iff.mp h
    simp only [if_neg h₁, if_neg h₂, if_pos h₃, routeRequestAt_eq hbody]
  · obtain ⟨body, hbody, rfl⟩ := Option.map_eq_some_iff.mp h
    simp only [if_neg h₁, if_neg h₂, if_neg h₃, if_pos h₄, routeRequestAt_eq hbody]
  · cases h
    simp only [if_neg h₁, if_neg h₂, if_neg h₃, if_neg h₄]

end Grail
