import Grail.IfAddresses

/-! # Socket options in the tracee's memory

Every branch of `HandleGetSockOpt` that succeeds stores its value with the length of its own
variable (`optionLength`) and then this length in `*optlen`, which it never reads
(`getSockOpt_stores`).  So a buffer that is too small is overrun (`storeOption_iff`). -/

namespace Grail

open Programs AddressSpace Bytes Ptrace

/-! ### The options -/

/-- `myoptlen` for the options that are supported: `sizeof(myoptlen)`, and `strlen("reno") + 1`. -/
def optionLength (level optname : ℤ) : Option ℕ :=
  if level = SOL_SOCKET ∧ (optname = SO_SNDBUF ∨ optname = SO_RCVBUF ∨ optname = SO_BROADCAST) then
    some 4
  else if level = IPPROTO_TCP ∧ optname = TCP_MAXSEG then some 4
  else if level = IPPROTO_TCP ∧ optname = TCP_CONGESTION then some 5
  else none

/-- The options that are attributes of a `TcpSocket`. -/
def needsTcp (level optname : ℤ) : Prop :=
  level = SOL_SOCKET ∧ optname = SO_RCVBUF ∨ level = IPPROTO_TCP ∧ optname = TCP_MAXSEG

/-- The socket has the option: an ns-3 socket, which is a TCP socket if need be.  `TCP_CONGESTION`
is answered for every socket. -/
def HasOption (s : St) (fd : Fd) (level optname : ℤ) : Prop :=
  (level = IPPROTO_TCP ∧ optname = TCP_CONGESTION) ∨ ∃ sock, s.d.fds.sockets.find fd = some sock ∧
    (needsTcp level optname → s.d.isTcp sock = true)

/-- The bytes that a value occupies. -/
def Val.size : Val → ℕ
  | .bytes n => n
  | .int _ => 4
  | _ => 0

theorem optionLength_cases {level optname : ℤ} {len : ℕ}
    (h : optionLength level optname = some len) :
    level = SOL_SOCKET ∧ optname = SO_SNDBUF ∧ len = 4 ∨
    level = SOL_SOCKET ∧ optname = SO_RCVBUF ∧ len = 4 ∨
    level = SOL_SOCKET ∧ optname = SO_BROADCAST ∧ len = 4 ∨
    level = IPPROTO_TCP ∧ optname = TCP_MAXSEG ∧ len = 4 ∨
    level = IPPROTO_TCP ∧ optname = TCP_CONGESTION ∧ len = 5 := by
  unfold optionLength at h
  split_ifs at h with h₁ h₂ h₃ <;> cases h <;> tauto

section handler

variable {s : St} {fd : Fd} {th : Tracee} {optval optlen : Ptr}

/-- The value and its length are stored, and the call is answered with 0. -/
def St.stored (s : St) (th : Tracee) (optval optlen : Ptr) (v : Val) (d : Data) : St :=
  ⟨s.c.answer s.c.pid th 0,
    d.setStores ((s.c.pid, optlen, .int v.size) :: (s.c.pid, optval, v) :: s.d.stores)⟩

theorem run_storeOption {d : Data} {v : Val} {len : ℕ} (h : AtRequest s fd th) (hv : v.size = len)
    (hd : d.stores = s.d.stores) :
    (memcpyToTracee s.c.pid optval v >>= fun _ => memcpyToTracee s.c.pid optlen (.int len) >>=
      fun _ => fake 0 .success).run ⟨s.c, d⟩ = .ok (.success, s.stored th optval optlen v d) := by
  obtain ⟨call, retval, hw⟩ := h.next
  subst hv
  have hrun := @run_fakeAt s.c.pid ⟨s.c, d.setStores ((s.c.pid, optlen, .int v.size) ::
    (s.c.pid, optval, v) :: s.d.stores)⟩ th call retval 0 .success h.thread h.phase hw
  rw [St.stored, ← hrun]
  simp [memcpyToTracee, modifyData, fake, h.thread, Data.setStores, hd]

theorem run_getSockOptValue (h : AtRequest s fd th) :
    ∃ v d, (getSockOptValue optval optlen).run s = .ok (.success, s.stored th optval optlen v d) ∧
      v.size = 4 := by
  have hrun := @run_storeOption s fd th optval optlen { s.d with asks := s.d.asks + 1 }
    (.int (s.c.env.ns3 s.d.asks).ret) 4 h rfl rfl
  exact ⟨_, _, Eq.trans rfl hrun, rfl⟩

theorem run_congestion (h : AtRequest s fd th) (hval : optval ≠ 0) :
    (handleGetSockOpt fd IPPROTO_TCP TCP_CONGESTION optval optlen).run s =
      .ok (.success, s.stored th optval optlen (.bytes 5) s.d) := by
  have hlevel : IPPROTO_TCP ≠ SOL_SOCKET ∧ IPPROTO_TCP ≠ IPPROTO_IP := by decide
  have hname : TCP_CONGESTION ≠ TCP_MAXSEG := by decide
  have hrun := @run_storeOption s fd th optval optlen s.d (.bytes 5) 5 h rfl rfl
  rw [← hrun]
  simp [handleGetSockOpt, h.emulated, hval, hlevel, hname]

theorem getSockOpt_stores {level optname : ℤ} {len : ℕ} (h : AtRequest s fd th)
    (hopt : optionLength level optname = some len) (hsock : HasOption s fd level optname)
    (hval : optval ≠ 0) :
    ∃ v d, (handleGetSockOpt fd level optname optval optlen).run s =
      .ok (.success, s.stored th optval optlen v d) ∧ v.size = len := by
  have hlevel : IPPROTO_TCP ≠ SOL_SOCKET ∧ IPPROTO_TCP ≠ IPPROTO_IP := by decide
  have hnames : SO_RCVBUF ≠ SO_SNDBUF ∧ SO_BROADCAST ≠ SO_SNDBUF ∧
    SO_BROADCAST ≠ SO_RCVBUF := by decide
  obtain ⟨v, d, hvalue, hv⟩ := @run_getSockOptValue s fd th optval optlen h
  rcases hsock with ⟨rfl, rfl⟩ | ⟨sock, hsock, htcp⟩
  · obtain rfl : 5 = len := Option.some.inj hopt
    exact ⟨_, _, run_congestion h hval, rfl⟩
  rcases optionLength_cases hopt with ⟨rfl, rfl, rfl⟩ | ⟨rfl, rfl, rfl⟩ | ⟨rfl, rfl, rfl⟩ |
    ⟨rfl, rfl, rfl⟩ | ⟨rfl, rfl, rfl⟩
  · refine ⟨v, d, ?_, hv⟩
    rw [← hvalue]
    simp [handleGetSockOpt, h.emulated, hval, socketsAt, hsock]
  · refine ⟨v, d, ?_, hv⟩
    rw [← hvalue]
    simp [handleGetSockOpt, h.emulated, hval, socketsAt, tcpSocketAt, hsock, hnames,
      htcp (Or.inl ⟨rfl, rfl⟩)]
  · refine ⟨v, d, ?_, hv⟩
    rw [← hvalue]
    simp [handleGetSockOpt, h.emulated, hval, socketsAt, hsock, hnames]
  · refine ⟨v, d, ?_, hv⟩
    rw [← hvalue]
    simp [handleGetSockOpt, h.emulated, hval, socketsAt, tcpSocketAt, hsock, hlevel,
      htcp (Or.inr ⟨rfl, rfl⟩)]
  · exact ⟨_, _, run_congestion h hval, rfl⟩

end handler

/-! ### The bytes -/

/-- `MemcpyToTracee(pid, optval, &myoptval, myoptlen)` and
`MemcpyToTracee(pid, optlen, &myoptlen, sizeof(myoptlen))`; `myoptval` is what lies at and behind
the variable. -/
def storeOption (tracee : Space) (myoptval : Memory) (optval optlen myoptlen : ℕ) :
    Option Space := do
  let (_, tracee) ← Ptrace.memcpyToTracee tracee myoptval optval 0 myoptlen
  let (_, tracee) ← Ptrace.memcpyToTracee tracee (buffer (toBytes 4 myoptlen) myoptval) optlen 0 4
  return tracee

/-- The value of `*optlen`. -/
def socklen (tracee : Space) (optlen : ℕ) : ℕ := word (bytesOf tracee) 4 optlen

/-- `k` bytes of the value have been stored, at most `n`, and their number in `*optlen`; nothing
else has changed. -/
structure OptionStored (tracee tracee' : Space) (myoptval : Memory) (optval optlen n k : ℕ) :
    Prop where
  fits : k ≤ n
  value : ∀ i < k, tracee' (optval + i) = some (myoptval i)
  length : peek tracee' optlen 4 = some (toBytes 4 k)
  frame : ∀ x, ¬ (optval ≤ x ∧ x < optval + k) → ¬ (optlen ≤ x ∧ x < optlen + 4) →
    tracee' x = tracee x

section bytes

variable {tracee tracee' : Space} {myoptval : Memory} {optval optlen len n : ℕ}

/-- What both copies do when they come to their end. -/
theorem storeOption_some (h : storeOption tracee myoptval optval optlen len = some tracee') :
    Touched tracee optval len ∧ Touched tracee optlen 4 ∧
      peek tracee' optlen 4 = some (toBytes 4 len) ∧
      (∀ i < len, ¬ (optlen ≤ optval + i ∧ optval + i < optlen + 4) →
        tracee' (optval + i) = some (myoptval i)) ∧
      ∀ x, ¬ (optval ≤ x ∧ x < optval + len) → ¬ (optlen ≤ x ∧ x < optlen + 4) →
        tracee' x = tracee x := by
  unfold storeOption at h
  obtain ⟨⟨_, tracee₁⟩, hrun₁, h⟩ := Option.bind_eq_some_iff.mp h
  obtain ⟨⟨_, tracee₂⟩, hrun₂, h⟩ := Option.bind_eq_some_iff.mp h
  obtain rfl : tracee₂ = tracee' := Option.some.inj h
  have hv := memcpyToTracee_isSome.mp (Option.isSome_of_eq_some hrun₁)
  have hl := memcpyToTracee_isSome.mp (Option.isSome_of_eq_some hrun₂)
  obtain ⟨t₁, hrun₁', hcopy₁⟩ := @memcpyToTracee_copied tracee myoptval optval 0 len hv
  obtain rfl : tracee₁ = t₁ := congrArg Prod.snd (Option.some.inj (hrun₁.symm.trans hrun₁'))
  obtain ⟨t₂, hrun₂', hcopy₂⟩ :=
    @memcpyToTracee_copied tracee₁ (buffer (toBytes 4 len) myoptval) optlen 0 4 hl
  obtain rfl : tracee₂ = t₂ := congrArg Prod.snd (Option.some.inj (hrun₂.symm.trans hrun₂'))
  refine ⟨hv, (touched_copied hcopy₁ hv.mapped).mp hl, peek_copied hcopy₂, fun i hi hx => ?_,
    fun x hx hx' => ?_⟩
  · rw [hcopy₂.outside _ hx, hcopy₁.inside i hi, Nat.zero_add]
  · rw [hcopy₂.outside x hx', hcopy₁.outside x hx]

theorem storeOption_isSome (hv : Touched tracee optval len) (hl : Touched tracee optlen 4) :
    ∃ tracee', storeOption tracee myoptval optval optlen len = some tracee' := by
  obtain ⟨tracee₁, hrun₁, hcopy₁⟩ := @memcpyToTracee_copied tracee myoptval optval 0 len hv
  obtain ⟨tracee₂, hrun₂, -⟩ := @memcpyToTracee_copied tracee₁ (buffer (toBytes 4 len) myoptval)
    optlen 0 4 ((touched_copied hcopy₁ hv.mapped).mpr hl)
  refine ⟨tracee₂, ?_⟩
  simp only [storeOption, hrun₁, hrun₂, Option.bind_eq_bind, Option.bind_some]
  rfl

/-- An object that fits into one word. -/
theorem touched_word {a : ℕ} (h₀ : 0 < len) (h : len ≤ WORDSIZE) :
    Touched tracee a len ↔ Mapped tracee a WORDSIZE := by
  have hrounds : rounds len = 1 := by
    unfold rounds WORDSIZE at *
    omega
  unfold Touched WordsMapped
  rw [hrounds]
  constructor
  · exact fun hw => hw 0 Nat.one_pos
  · intro hm k hk
    obtain rfl : k = 0 := Nat.lt_one_iff.mp hk
    exact hm

theorem storeOption_iff (hlen : 0 < len ∧ len ≤ WORDSIZE) (hlt : n < 2 ^ 32)
    (hdisj : optval + n ≤ optlen ∨ optlen + 4 ≤ optval) :
    (∃ tracee' k, storeOption tracee myoptval optval optlen len = some tracee' ∧
      OptionStored tracee tracee' myoptval optval optlen n k) ↔
    len ≤ n ∧ Mapped tracee optval WORDSIZE ∧ Mapped tracee optlen WORDSIZE := by
  rw [← touched_word hlen.1 hlen.2, ← @touched_word tracee 4 optlen (by decide) (by decide)]
  constructor
  · rintro ⟨tracee', k, hrun, hst⟩
    obtain ⟨hv, hl, hpeek, -⟩ := storeOption_some hrun
    have hk := hst.fits
    have hlt' : len < 256 ^ 4 := by
      unfold WORDSIZE at hlen
      omega
    -- the length that is stored is that of the variable
    obtain rfl : len = k := toBytes_inj hlt' (by omega)
      (Option.some.inj (hpeek.symm.trans hst.length))
    exact ⟨hk, hv, hl⟩
  · rintro ⟨hle, hv, hl⟩
    obtain ⟨tracee', hrun⟩ := @storeOption_isSome tracee myoptval optval optlen len hv hl
    obtain ⟨-, -, hpeek, hvalue, hframe⟩ := storeOption_some hrun
    exact ⟨tracee', len, hrun, hle, fun i hi => hvalue i hi (by omega), hpeek, hframe⟩

end bytes

/-- `getsockopt` for a supported option of a socket stores a value of `len` bytes and its length.
In the tracee's memory this writes at most `*optlen` bytes at `optval`, their number in `*optlen`
and nothing else exactly if `*optlen` is at least `len` and both words are mapped. -/
theorem getSockOpt_fits {s : St} {fd : Fd} {th : Tracee} {level optname : ℤ} {optval optlen len : ℕ}
    {tracee : Space} {myoptval : Memory} (h : AtRequest s fd th)
    (hopt : optionLength level optname = some len)
    (hsock : HasOption s fd level optname) (hval : optval ≠ 0)
    (hdisj : optval + socklen tracee optlen ≤ optlen ∨ optlen + 4 ≤ optval) :
    (∃ v d, (handleGetSockOpt fd level optname optval optlen).run s =
      .ok (.success, s.stored th optval optlen v d) ∧ v.size = len) ∧
    ((∃ tracee' k, storeOption tracee myoptval optval optlen len = some tracee' ∧
      OptionStored tracee tracee' myoptval optval optlen (socklen tracee optlen) k) ↔
    len ≤ socklen tracee optlen ∧ Mapped tracee optval WORDSIZE ∧
      Mapped tracee optlen WORDSIZE) := by
  have hlt : socklen tracee optlen < 2 ^ 32 := word_lt (bytesOf tracee) 4 optlen
  refine ⟨getSockOpt_stores h hopt hsock hval, storeOption_iff ?_ hlt hdisj⟩
  unfold WORDSIZE
  rcases optionLength_cases hopt with ⟨-, -, rfl⟩ | ⟨-, -, rfl⟩ | ⟨-, -, rfl⟩ | ⟨-, -, rfl⟩ |
    ⟨-, -, rfl⟩ <;> decide

/-- The bytes from 8 to 47, with the number `n` at 32. -/
def optionSpace (n : UInt8) : Space := fun x =>
  if 8 ≤ x ∧ x < 48 then some (if x = 32 then n else 0) else none

theorem getSockOpt_fits_broadcast :
    let s := requestState []
    let th : Tracee := ⟨.entry, .getpid, false, 0, 0, 0⟩
    (∃ v d, (handleGetSockOpt 100 SOL_SOCKET SO_BROADCAST 16 32).run s =
      .ok (.success, s.stored th 16 32 v d) ∧ v.size = 4) ∧
    ((∃ tracee' k, storeOption (optionSpace 4) (fun _ => 1) 16 32 4 = some tracee' ∧
      OptionStored (optionSpace 4) tracee' (fun _ => 1) 16 32 (socklen (optionSpace 4) 32) k) ↔
    4 ≤ socklen (optionSpace 4) 32 ∧ Mapped (optionSpace 4) 16 WORDSIZE ∧
      Mapped (optionSpace 4) 32 WORDSIZE) := by
  intro s th
  have htcp : ¬ needsTcp SOL_SOCKET SO_BROADCAST := by
    rintro (⟨-, h⟩ | ⟨h, -⟩)
    · exact absurd h (by decide)
    · exact absurd h (by decide)
  exact getSockOpt_fits (atRequest_requestState []) rfl
    (Or.inr ⟨_, rfl, fun h => absurd h htcp⟩) (by decide) (Or.inl (by decide +kernel))

/-- The buffer has two bytes; the two bytes behind it are overwritten, and `*optlen` becomes 4. -/
theorem getSockOpt_overruns :
    socklen (optionSpace 2) 32 = 2 ∧
    (∃ v d, (handleGetSockOpt 100 SOL_SOCKET SO_BROADCAST 16 32).run (requestState []) =
      .ok (.success, (requestState []).stored ⟨.entry, .getpid, false, 0, 0, 0⟩ 16 32 v d) ∧
      v.size = 4) ∧
    ∃ tracee', storeOption (optionSpace 2) (fun _ => 1) 16 32 4 = some tracee' ∧
      optionSpace 2 19 = some 0 ∧ tracee' 19 = some 1 ∧ socklen tracee' 32 = 4 ∧
      ¬ ∃ k, OptionStored (optionSpace 2) tracee' (fun _ => 1) 16 32 2 k := by
  have htcp : ¬ needsTcp SOL_SOCKET SO_BROADCAST := by
    rintro (⟨-, h⟩ | ⟨h, -⟩)
    · exact absurd h (by decide)
    · exact absurd h (by decide)
  have hv : Mapped (optionSpace 2) 16 WORDSIZE := by decide
  have hl : Mapped (optionSpace 2) 32 WORDSIZE := by decide
  obtain ⟨tracee', hrun⟩ := @storeOption_isSome (optionSpace 2) (fun _ => 1) 16 32 4
    ((touched_word (by decide) (by decide)).mpr hv) ((touched_word (by decide) (by decide)).mpr hl)
  obtain ⟨-, -, hpeek, hvalue, -⟩ := storeOption_some hrun
  have hmapped : Mapped tracee' 32 4 := by
    by_contra hno
    rw [peek_unmapped hno] at hpeek
    cases hpeek
  have hlen : socklen tracee' 32 = 4 := by
    rw [peek_mapped hmapped] at hpeek
    exact congrArg ofBytes (Option.some.inj hpeek)
  refine ⟨by decide +kernel, getSockOpt_stores (atRequest_requestState []) rfl
    (Or.inr ⟨_, rfl, fun h => absurd h htcp⟩) (by decide), tracee', hrun, by decide,
    hvalue 3 (by decide) (by decide), hlen, ?_⟩
  rintro ⟨k, hst⟩
  have hk := toBytes_inj (by decide : 4 < 256 ^ 4) (hst.fits.trans_lt (by decide))
    (Option.some.inj (hpeek.symm.trans hst.length))
  exact absurd (hk ▸ hst.fits) (by decide)

end Grail
