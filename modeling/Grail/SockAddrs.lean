import Grail.DottedDecimal
import Grail.TraceeMemory
import Grail.State

/-! # Socket addresses in the tracee's memory

`SetBsdAddress` and `GetNs3Address` on the bytes of a `sockaddr_in`.  Both go through the text of
the address (`inetPton_print`, `ipv4Address_inetNtop`) and swap the bytes of the port.

`SetBsdAddress` reads `*addrlen` and stores two objects; it comes to its end exactly if the last
words of both are mapped (`memcpyToTracee_isSome`), and then the address can be read back
(`setBsdAddress_sets`). -/

namespace Grail.Ptrace

open AddressSpace Bytes DottedDecimal

/-! ### Conversions -/

/-- `htons(x)`, which is `ntohs(x)`, too. -/
def htons (x : ℕ) : ℕ := x % 256 * 256 + x / 256 % 256

/-- `inet_pton(AF_INET, src, dst)`: the bytes that are stored. -/
def inetPton (src : List Char) : Option (List UInt8) :=
  match octets src with
  | some bs => if bs.length = 4 then some bs else none
  | none => none

/-- `inet_ntop(AF_INET, src, dst, 16)` -/
def inetNtop (src : List UInt8) : List Char := text src

/-- `Ipv4Address::Print` -/
def print (ns3Address : ℕ) : List Char := text (toBytesBE 4 ns3Address)

/-- `Ipv4Address(address)` -/
def ipv4Address (address : List Char) : ℕ := host address

theorem inetPton_print (a : ℕ) : inetPton (print a) = some (toBytesBE 4 a) := by
  have hlen := length_toBytesBE 4 a
  unfold inetPton print
  rw [octets_text (List.ne_nil_of_length_pos (by rw [hlen]; decide))]
  exact if_pos hlen

theorem ipv4Address_inetNtop {a : ℕ} (h : a < 2 ^ 32) :
    ipv4Address (inetNtop (toBytesBE 4 a)) = a := by
  unfold ipv4Address inetNtop
  rw [host_text (length_toBytesBE 4 a), toBytesBE, List.reverse_reverse, ofBytes_toBytes]
  exact Nat.mod_eq_of_lt h

/-- The two bytes change places. -/
theorem htons_bytes (x : ℕ) : htons x % 256 = x / 256 % 256 ∧ htons x / 256 = x % 256 := by
  have hhigh : x / 256 % 256 < 256 := Nat.mod_lt _ (by decide)
  unfold htons
  generalize x / 256 % 256 = q at hhigh
  omega

theorem htons_htons {x : ℕ} (h : x < 2 ^ 16) : htons (htons x) = x := by
  obtain ⟨hlow, hhigh⟩ := htons_bytes x
  rw [htons, hlow, hhigh]
  omega

theorem htons_lt (x : ℕ) : htons x < 256 ^ 2 := by
  obtain ⟨hlow, hhigh⟩ := htons_bytes x
  omega

/-- In the order of the host, the swapped value has the bytes in network order. -/
theorem toBytes_htons (x : ℕ) : toBytes 2 (htons x) = toBytesBE 2 x := by
  obtain ⟨hlow, hhigh⟩ := htons_bytes x
  have h₁ : UInt8.ofNat (htons x) = UInt8.ofNat (x / 256) := by
    apply UInt8.toNat_inj.mp
    rw [UInt8.toNat_ofNat', UInt8.toNat_ofNat', hlow]
  have h₂ : UInt8.ofNat (htons x / 256) = UInt8.ofNat x := by
    apply UInt8.toNat_inj.mp
    rw [UInt8.toNat_ofNat', UInt8.toNat_ofNat', hhigh]
    omega
  simp only [toBytesBE, toBytes, List.reverse_cons, List.reverse_nil, List.nil_append,
    List.cons_append, h₁, h₂]

/-! ### `SetBsdAddress` and `GetNs3Address` -/

/-- `cAddr`, which starts with `memset(&cAddr,0,sizeof(cAddr))`. -/
def cAddr (ip port : ℕ) : List UInt8 :=
  toBytes 2 AF_INET.toNat ++ (toBytes 2 (htons port) ++
    ((inetPton (print ip)).getD (toBytes 4 0) ++ toBytes 8 0))

/-- `SetBsdAddress` for an `InetSocketAddress`: the result and the tracee's memory, `none` for
`exit(1)`.  `mem` is what lies at and behind the variables before they are assigned. -/
def setBsdAddress (tracee : Space) (mem : Memory) (ip port addr addrlen : ℕ) :
    Option (Bool × Space) :=
  if addr = 0 then some (true, tracee)
  else do
    let cAddrSize := 16
    let _addrlen := word (memcpyFromTracee tracee mem 0 addrlen 4).2 4 0
    let copylen := min _addrlen cAddrSize
    let (_, tracee) ← memcpyToTracee tracee (buffer (cAddr ip port) mem) addr 0 copylen
    let (_, tracee) ← memcpyToTracee tracee (buffer (toBytes 4 cAddrSize) mem) addrlen 0 4
    return (true, tracee)

/-- `GetNs3Address`: the address and the port. -/
def getNs3Address (tracee : Space) (mem : Memory) (addr addrlen : ℕ) :
    Except Crash (Option (ℕ × ℕ)) :=
  if 16 < addrlen then .error .assert
  else
    let _addr := (memcpyFromTracee tracee mem 0 addr addrlen).2
    if word _addr 2 0 ≠ AF_INET.toNat then .ok none
    else .ok (some (ipv4Address (inetNtop (Bytes.read _addr 4 4)), htons (word _addr 2 2)))

/-! ### Copies that come to their end -/

section copies

variable {tracee tracee' : Space} {mem : Memory} {a b len n k : ℕ}

/-- A round needs its whole word. -/
theorem mapped_of_round {r : Space}
    (h : memcpyToTraceeRound mem a b len tracee n = some r) :
    Mapped tracee (a + WORDSIZE * n) WORDSIZE := by
  by_contra hno
  unfold memcpyToTraceeRound pokeData peekData at h
  dsimp only at h
  split_ifs at h
  · rw [poke_unmapped (by rwa [length_read])] at h
    cases h
  · rw [peek_unmapped hno] at h
    cases h

theorem wordsMapped_of_loop (hn : n ≤ rounds len)
    (h : (List.range n).foldlM (memcpyToTraceeRound mem a b len) tracee = some tracee') :
    WordsMapped tracee a n := by
  induction n generalizing tracee' with
  | zero => exact fun k hk => absurd hk (Nat.not_lt_zero k)
  | succ n ih =>
      rw [List.range_succ, List.foldlM_append] at h
      obtain ⟨tracee₁, hloop, hround⟩ := Option.bind_eq_some_iff.mp h
      have hwords := ih (Nat.le_of_succ_le hn) hloop
      obtain ⟨tracee₂, hloop₂, hcopy⟩ :=
        @memcpyToTracee_loop tracee mem a b len n (Nat.le_of_succ_le hn) hwords
      obtain rfl : tracee₁ = tracee₂ := Option.some.inj (hloop.symm.trans hloop₂)
      rw [List.foldlM_cons] at hround
      obtain ⟨tracee₃, hround, -⟩ := Option.bind_eq_some_iff.mp hround
      have hmoved : moved len n = WORDSIZE * n := by
        unfold moved rounds WORDSIZE at *
        omega
      rw [hmoved] at hcopy
      have hword : Mapped tracee (a + WORDSIZE * n) WORDSIZE := by
        by_contra hno
        exact not_mapped_keep hno hcopy (mapped_of_round hround)
      intro k hk
      rcases Nat.lt_succ_iff_lt_or_eq.mp hk with hlt | rfl
      · exact hwords k hlt
      · exact hword

/-- An object is stored exactly if all words that are touched are mapped. -/
theorem memcpyToTracee_isSome :
    (memcpyToTracee tracee mem a b len).isSome = true ↔ Touched tracee a len := by
  constructor
  · intro h
    obtain ⟨r, hr⟩ := Option.isSome_iff_exists.mp h
    obtain ⟨tracee', hloop, -⟩ := Option.map_eq_some_iff.mp hr
    exact wordsMapped_of_loop le_rfl hloop
  · intro h
    obtain ⟨tracee', hrun, -⟩ := @memcpyToTracee_copied tracee mem a b len h
    rw [hrun]
    rfl

/-- Storing an object that is mapped maps nothing else. -/
theorem isSome_of_copied (h : Copied (fun x => some (mem x)) tracee tracee' b a len)
    (hm : Mapped tracee a len) (x : ℕ) : (tracee' x).isSome = (tracee x).isSome := by
  by_cases hx : a ≤ x ∧ x < a + len
  · obtain ⟨i, rfl⟩ := Nat.exists_eq_add_of_le hx.1
    rw [h.inside i (by omega), hm i (by omega)]
    rfl
  · rw [h.outside x hx]

theorem touched_copied (h : Copied (fun x => some (mem x)) tracee tracee' b a len)
    (hm : Mapped tracee a len) {c : ℕ} : Touched tracee' c k ↔ Touched tracee c k := by
  unfold Touched WordsMapped Mapped
  simp only [isSome_of_copied h hm]

end copies

/-! ### The address is set -/

/-- The bytes of a `sockaddr_in`: the family, and port and address in network order. -/
def sockaddrIn (ip port : ℕ) : List UInt8 :=
  toBytes 2 AF_INET.toNat ++ (toBytesBE 2 port ++ (toBytesBE 4 ip ++ toBytes 8 0))

theorem cAddr_eq (ip port : ℕ) : cAddr ip port = sockaddrIn ip port := by
  unfold cAddr sockaddrIn
  rw [inetPton_print, Option.getD_some, toBytes_htons]

theorem length_sockaddrIn (ip port : ℕ) : (sockaddrIn ip port).length = 16 := by
  simp [sockaddrIn]

/-- The first `min(len, 16)` bytes of the encoding lie at `addr` and 16 at `addrlen`, nothing else
has changed, and a complete encoding is read back. -/
structure AddressSet (tracee tracee' : Space) (ip port addr addrlen len : ℕ) : Prop where
  address : ∀ i < min len 16, tracee' (addr + i) = (sockaddrIn ip port)[i]?
  length : peek tracee' addrlen 4 = some (toBytes 4 16)
  frame : ∀ x, ¬ (addr ≤ x ∧ x < addr + min len 16) → ¬ (addrlen ≤ x ∧ x < addrlen + 4) →
    tracee' x = tracee x
  back : 16 ≤ len → ∀ mem, getNs3Address tracee' mem addr 16 = .ok (some (ip, port))

section address

variable {tracee tracee' : Space} {mem : Memory} {ip port addr addrlen len : ℕ}

/-- A `sockaddr_in` is read back. -/
theorem getNs3Address_sockaddrIn (hip : ip < 2 ^ 32) (hport : port < 2 ^ 16)
    (h : ∀ i < 16, tracee (addr + i) = (sockaddrIn ip port)[i]?) :
    getNs3Address tracee mem addr 16 = .ok (some (ip, port)) := by
  have hlen := length_sockaddrIn ip port
  have hmapped : Mapped tracee addr 16 := by
    intro i hi
    rw [h i hi, List.getElem?_eq_getElem (by omega)]
    rfl
  have hcopy := @memcpyFromTracee_copied tracee mem 0 addr 16
    ((touched_iff hmapped).mpr (Or.inl rfl))
  unfold getNs3Address
  generalize (memcpyFromTracee tracee mem 0 addr 16).2 = _addr at hcopy
  have hholds : Holds _addr 0 (sockaddrIn ip port) := by
    rw [holds_iff]
    intro i hi
    rw [hcopy.inside i (by omega), h i (by omega), List.getElem?_eq_getElem hi]
    rfl
  obtain ⟨hfamily, hrest⟩ := holds_append.mp hholds
  obtain ⟨hp, hrest⟩ := holds_append.mp hrest
  obtain ⟨ha, -⟩ := holds_append.mp hrest
  rw [length_toBytes] at hp ha
  rw [length_toBytesBE] at ha
  rw [← toBytes_htons] at hp
  have hfamily : word _addr 2 0 = AF_INET.toNat := hfamily.word_toBytes (by decide)
  have hp : word _addr 2 2 = htons port := hp.word_toBytes (htons_lt port)
  have ha : Bytes.read _addr 4 4 = toBytesBE 4 ip := by
    have hread := ha
    rwa [Holds, length_toBytesBE] at hread
  simp only [lt_irrefl, if_false, hfamily, hp, ha, ipv4Address_inetNtop hip, htons_htons hport,
    ne_eq, not_true_eq_false]

/-- `*addrlen` is read if its word is mapped. -/
theorem addrlen_read (ht : Touched tracee addrlen 4) (hlt : len < 2 ^ 32)
    (hlen : peek tracee addrlen 4 = some (toBytes 4 len)) :
    word (memcpyFromTracee tracee mem 0 addrlen 4).2 4 0 = len := by
  have hcopy := @memcpyFromTracee_copied tracee mem 0 addrlen 4 ht
  rw [peek_mapped ht.mapped] at hlen
  have hcells := Option.some.inj hlen
  have hread : Bytes.read (memcpyFromTracee tracee mem 0 addrlen 4).2 4 0 = toBytes 4 len := by
    rw [← hcells]
    refine List.map_congr_left fun i hi => ?_
    rw [hcopy.inside i (List.mem_range.mp hi)]
  rw [word, hread, ofBytes_toBytes]
  exact Nat.mod_eq_of_lt hlt

theorem peek_copied {bs : List UInt8} (h : Copied (fun x => some (buffer bs mem x)) tracee tracee' 0
    addr bs.length) : peek tracee' addr bs.length = some bs := by
  have hget : ∀ i (hi : i < bs.length), tracee' (addr + i) = some bs[i] := by
    intro i hi
    rw [h.inside i hi, Nat.zero_add, buffer_of_lt hi]
  rw [peek_mapped fun i hi => by rw [hget i hi]; rfl]
  refine congrArg some (List.ext_getElem (length_cells _ _ _) fun i hi hi' => ?_)
  rw [getElem_cells, hget i hi']
  rfl

/-- What is stored when all words are mapped. -/
theorem setBsdAddress_run (hip : ip < 2 ^ 32) (hport : port < 2 ^ 16) (hlt : len < 2 ^ 32)
    (haddr : addr ≠ 0) (hlen : peek tracee addrlen 4 = some (toBytes 4 len))
    (hdisj : addr + min len 16 ≤ addrlen ∨ addrlen + 4 ≤ addr)
    (ha : Touched tracee addr (min len 16)) (hl : Touched tracee addrlen 4) :
    ∃ tracee', setBsdAddress tracee mem ip port addr addrlen = some (true, tracee') ∧
      AddressSet tracee tracee' ip port addr addrlen len := by
  obtain ⟨tracee₁, hrun₁, hcopy₁⟩ :=
    @memcpyToTracee_copied tracee (buffer (cAddr ip port) mem) addr 0 (min len 16) ha
  obtain ⟨tracee₂, hrun₂, hcopy₂⟩ := @memcpyToTracee_copied tracee₁ (buffer (toBytes 4 16) mem)
    addrlen 0 4 ((touched_copied hcopy₁ ha.mapped).mpr hl)
  have haddress : ∀ i < min len 16, tracee₂ (addr + i) = (sockaddrIn ip port)[i]? := by
    intro i hi
    have hi' : i < (sockaddrIn ip port).length := by
      rw [length_sockaddrIn]
      omega
    rw [hcopy₂.outside _ (by omega), hcopy₁.inside i hi, cAddr_eq, Nat.zero_add, buffer_of_lt hi',
      List.getElem?_eq_getElem hi']
  refine ⟨tracee₂, ?_, haddress, peek_copied hcopy₂, fun x hx hx' => ?_, fun hle mem' => ?_⟩
  · unfold setBsdAddress
    simp only [if_neg haddr, addrlen_read hl hlt hlen, hrun₁, hrun₂, Option.bind_eq_bind,
      Option.bind_some]
    rfl
  · rw [hcopy₂.outside x hx', hcopy₁.outside x hx]
  · refine getNs3Address_sockaddrIn hip hport fun i hi => haddress i ?_
    omega

/-- Without one of the words the emulator ends. -/
theorem setBsdAddress_exit (hlt : len < 2 ^ 32) (haddr : addr ≠ 0)
    (hlen : peek tracee addrlen 4 = some (toBytes 4 len))
    (h : ¬ (Touched tracee addr (min len 16) ∧ Touched tracee addrlen 4)) :
    setBsdAddress tracee mem ip port addr addrlen = none := by
  by_contra hsome
  obtain ⟨r, hrun⟩ := Option.ne_none_iff_exists'.mp hsome
  unfold setBsdAddress at hrun
  simp only [if_neg haddr, Option.bind_eq_bind] at hrun
  obtain ⟨⟨_, tracee₁⟩, hrun₁, hrun⟩ := Option.bind_eq_some_iff.mp hrun
  obtain ⟨⟨_, tracee₂⟩, hrun₂, -⟩ := Option.bind_eq_some_iff.mp hrun
  have hta := memcpyToTracee_isSome.mp (Option.isSome_of_eq_some hrun₁)
  have htl := memcpyToTracee_isSome.mp (Option.isSome_of_eq_some hrun₂)
  obtain ⟨tracee₃, hrun₃, hcopy⟩ :=
    @memcpyToTracee_copied tracee (buffer (cAddr ip port) mem) addr 0 _ hta
  obtain rfl : tracee₁ = tracee₃ := congrArg Prod.snd (Option.some.inj (hrun₁.symm.trans hrun₃))
  have hl := (touched_copied hcopy hta.mapped).mp htl
  rw [addrlen_read hl hlt hlen] at hta
  exact h ⟨hta, hl⟩

/-- For an address argument that is not null and two areas that are mapped and disjoint,
`SetBsdAddress` does its work exactly if the last word of the address and the word at `addrlen` are
mapped, too. -/
theorem setBsdAddress_sets (hip : ip < 2 ^ 32) (hport : port < 2 ^ 16) (hlt : len < 2 ^ 32)
    (haddr : addr ≠ 0) (hmapped : Mapped tracee addr (min len 16))
    (hlen : peek tracee addrlen 4 = some (toBytes 4 len))
    (hdisj : addr + min len 16 ≤ addrlen ∨ addrlen + 4 ≤ addr) :
    (∃ tracee', setBsdAddress tracee mem ip port addr addrlen = some (true, tracee') ∧
      AddressSet tracee tracee' ip port addr addrlen len) ↔
    (min len 16 % WORDSIZE = 0 ∨ Mapped tracee (addr + lastWord (min len 16)) WORDSIZE) ∧
      Mapped tracee addrlen WORDSIZE := by
  have hmapped' : Mapped tracee addrlen 4 := by
    by_contra hno
    rw [peek_unmapped hno] at hlen
    cases hlen
  have hl : Touched tracee addrlen 4 ↔ Mapped tracee addrlen WORDSIZE := by
    rw [touched_iff hmapped', or_iff_right (by decide)]
    rfl
  rw [← touched_iff hmapped, ← hl]
  constructor
  · rintro ⟨tracee', hrun, -⟩
    by_contra hno
    rw [setBsdAddress_exit hlt haddr hlen hno] at hrun
    cases hrun
  · rintro ⟨ha, hl⟩
    exact setBsdAddress_run hip hport hlt haddr hlen hdisj ha hl

end address

/-- A page whose bytes are 0, but for the value 16 of a `socklen_t` at `addrlen`. -/
def pageWithLength (addrlen : ℕ) : Space := fun x =>
  if x < 4096 then some (if x = addrlen then 16 else 0) else none

/-- Both areas lie inside the page. -/
theorem setBsdAddress_sets_inside :
    let tracee := pageWithLength 4088
    peek tracee 4088 4 = some (toBytes 4 16) ∧ Mapped tracee 16 16 ∧
      ∃ tracee', setBsdAddress tracee (fun _ => 0) 0x0a010002 698 16 4088 = some (true, tracee') ∧
        AddressSet tracee tracee' 0x0a010002 698 16 4088 16 := by
  intro tracee
  have hlen : peek tracee 4088 4 = some (toBytes 4 16) := by decide +kernel
  have hmapped : Mapped tracee 16 16 := by decide +kernel
  refine ⟨hlen, hmapped, ?_⟩
  exact (setBsdAddress_sets (by decide) (by decide) (by decide) (by decide) hmapped hlen
    (Or.inl (by decide))).mpr ⟨Or.inl (by decide), by decide +kernel⟩

/-- The length is the last object of the page. -/
theorem setBsdAddress_pageEnd :
    let tracee := pageWithLength 4092
    peek tracee 4092 4 = some (toBytes 4 16) ∧ Mapped tracee 16 16 ∧
      setBsdAddress tracee (fun _ => 0) 0x0a010002 698 16 4092 = none ∧
      ¬ ∃ tracee', setBsdAddress tracee (fun _ => 0) 0x0a010002 698 16 4092 = some (true, tracee') ∧
        AddressSet tracee tracee' 0x0a010002 698 16 4092 16 := by
  intro tracee
  have hlen : peek tracee 4092 4 = some (toBytes 4 16) := by decide +kernel
  have hword : ¬ Mapped tracee 4092 WORDSIZE := by decide +kernel
  have hexit : setBsdAddress tracee (fun _ => 0) 0x0a010002 698 16 4092 = none :=
    setBsdAddress_exit (by decide) (by decide) hlen fun h => hword (h.2 0 (by decide))
  refine ⟨hlen, by decide +kernel, hexit, ?_⟩
  rintro ⟨tracee', hrun, -⟩
  rw [hexit] at hrun
  cases hrun

end Grail.Ptrace
