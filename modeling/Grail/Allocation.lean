import Grail.Tables

/-! # Allocation of descriptor numbers

`Fds.Partition`: the available numbers, the sockets, the netlink sockets and the random devices
divide the range 100..199 among themselves.  Every path that takes or returns a number keeps it
(`TableStep.partition`), so it holds after every run (`descriptors_partitioned`). -/

namespace Grail

open Programs

/-- The numbers of emulated descriptors. -/
def numbers : Finset Fd := Fds.initial.availableFDs

theorem mem_numbers {fd : ℤ} : fd ∈ numbers ↔ 100 ≤ fd ∧ fd ≤ 199 := by
  simp only [numbers, Fds.initial, Finset.mem_image, Finset.mem_range]
  constructor
  · rintro ⟨i, hi, rfl⟩
    omega
  · rintro ⟨h, h'⟩
    exact ⟨(fd - 100).toNat, by omega, by omega⟩

namespace Fds

/-- Every number is available or names exactly one emulated object. -/
structure Partition (f : Fds) : Prop where
  union : f.availableFDs ∪ f.sockets.keys ∪ f.netlinks.keys ∪ f.randomFds = numbers
  available_sockets : Disjoint f.availableFDs f.sockets.keys
  available_netlinks : Disjoint f.availableFDs f.netlinks.keys
  available_random : Disjoint f.availableFDs f.randomFds
  sockets_netlinks : Disjoint f.sockets.keys f.netlinks.keys
  sockets_random : Disjoint f.sockets.keys f.randomFds
  netlinks_random : Disjoint f.netlinks.keys f.randomFds

theorem nextFD_mem {f : Fds} {fd : Fd} (h : f.nextFD = some fd) : fd ∈ f.availableFDs := by
  unfold nextFD at h
  split_ifs at h with hne
  cases h
  exact Finset.min'_mem _ hne

theorem isEmulated_iff {f : Fds} {fd : Fd} :
    f.isEmulated fd = true ↔ fd ∈ f.netlinks.keys ∨ fd ∈ f.sockets.keys ∨ fd ∈ f.randomFds := by
  simp [isEmulated, StdMap.mem_keys, or_assoc]

namespace Partition

variable {f : Fds} {fd : Fd}

theorem initial : Fds.initial.Partition where
  union := by simp [numbers, Fds.initial]
  available_sockets := by simp [Fds.initial]
  available_netlinks := by simp [Fds.initial]
  available_random := by simp [Fds.initial]
  sockets_netlinks := by simp [Fds.initial]
  sockets_random := by simp [Fds.initial]
  netlinks_random := by simp [Fds.initial]

/-- Only the four sets matter. -/
theorem congr {f' : Fds} (h : f.Partition) (ha : f'.availableFDs = f.availableFDs)
    (hs : f'.sockets.keys = f.sockets.keys) (hn : f'.netlinks = f.netlinks)
    (hr : f'.randomFds = f.randomFds) : f'.Partition := by
  constructor
  · rw [ha, hs, hn, hr]
    exact h.union
  · rw [ha, hs]
    exact h.available_sockets
  · rw [ha, hn]
    exact h.available_netlinks
  · rw [ha, hr]
    exact h.available_random
  · rw [hs, hn]
    exact h.sockets_netlinks
  · rw [hs, hr]
    exact h.sockets_random
  · rw [hn, hr]
    exact h.netlinks_random

/-- An available number is given to a socket. -/
theorem takeSocket (h : f.Partition) (hfd : fd ∈ f.availableFDs) (sock : SockId) :
    ((f.eraseAvailable fd).addSocket fd sock).Partition := by
  obtain ⟨hu, has, han, har, hsn, hsr, hnr⟩ := h
  simp only [Finset.disjoint_left, Finset.ext_iff, Finset.mem_union] at hu has han har hsn hsr hnr
  constructor <;> simp only [eraseAvailable, addSocket, StdMap.keys_assign, Finset.disjoint_left,
    Finset.ext_iff, Finset.mem_union, Finset.mem_insert, Finset.mem_erase] <;> grind

/-- An available number is given to a netlink socket. -/
theorem takeNetlink (h : f.Partition) (hfd : fd ∈ f.availableFDs) (nl : NlId) :
    ((f.eraseAvailable fd).addNetlink fd nl).Partition := by
  obtain ⟨hu, has, han, har, hsn, hsr, hnr⟩ := h
  simp only [Finset.disjoint_left, Finset.ext_iff, Finset.mem_union] at hu has han har hsn hsr hnr
  constructor <;> simp only [eraseAvailable, addNetlink, StdMap.keys_assign, Finset.disjoint_left,
    Finset.ext_iff, Finset.mem_union, Finset.mem_insert, Finset.mem_erase] <;> grind

/-- An available number is given to a random device. -/
theorem takeRandom (h : f.Partition) (hfd : fd ∈ f.availableFDs) :
    ((f.eraseAvailable fd).addRandom fd).Partition := by
  obtain ⟨hu, has, han, har, hsn, hsr, hnr⟩ := h
  simp only [Finset.disjoint_left, Finset.ext_iff, Finset.mem_union] at hu has han har hsn hsr hnr
  constructor <;> simp only [eraseAvailable, addRandom, Finset.disjoint_left,
    Finset.ext_iff, Finset.mem_union, Finset.mem_insert, Finset.mem_erase] <;> grind

theorem closeSocket (h : f.Partition) (hfd : fd ∈ f.sockets.keys) :
    (f.closeSocket fd).Partition := by
  obtain ⟨hu, has, han, har, hsn, hsr, hnr⟩ := h
  simp only [Finset.disjoint_left, Finset.ext_iff, Finset.mem_union] at hu has han har hsn hsr hnr
  constructor <;> simp only [Fds.closeSocket, StdMap.keys_erase, Finset.disjoint_left,
    Finset.ext_iff, Finset.mem_union, Finset.mem_insert, Finset.mem_erase] <;> grind

theorem closeNetlink (h : f.Partition) (hfd : fd ∈ f.netlinks.keys) :
    (f.closeNetlink fd).Partition := by
  obtain ⟨hu, has, han, har, hsn, hsr, hnr⟩ := h
  simp only [Finset.disjoint_left, Finset.ext_iff, Finset.mem_union] at hu has han har hsn hsr hnr
  constructor <;> simp only [Fds.closeNetlink, StdMap.keys_erase, Finset.disjoint_left,
    Finset.ext_iff, Finset.mem_union, Finset.mem_insert, Finset.mem_erase] <;> grind

theorem closeRandom (h : f.Partition) (hfd : fd ∈ f.randomFds) :
    (f.closeRandom fd).Partition := by
  obtain ⟨hu, has, han, har, hsn, hsr, hnr⟩ := h
  simp only [Finset.disjoint_left, Finset.ext_iff, Finset.mem_union] at hu has han har hsn hsr hnr
  constructor <;> simp only [Fds.closeRandom, Finset.disjoint_left,
    Finset.ext_iff, Finset.mem_union, Finset.mem_insert, Finset.mem_erase] <;> grind

/-- An available number is no emulated descriptor. -/
theorem not_emulated (h : f.Partition) (hfd : fd ∈ f.availableFDs) : f.isEmulated fd = false := by
  refine eq_false_of_ne_true fun hemu => ?_
  rcases isEmulated_iff.mp hemu with hn | hs | hr
  · exact Finset.disjoint_left.mp h.available_netlinks hfd hn
  · exact Finset.disjoint_left.mp h.available_sockets hfd hs
  · exact Finset.disjoint_left.mp h.available_random hfd hr

end Partition
end Fds

theorem TableStep.partition {s : St} {l : Label} {d' : Data} (h : TableStep s l d')
    (hp : s.d.fds.Partition) : d'.fds.Partition := by
  cases h with
  | same h => exact h.fds ▸ hp
  | random hfd h => exact h.fds ▸ hp.takeRandom (Fds.nextFD_mem hfd)
  | socket hfd h => exact h.fds ▸ hp.takeSocket (Fds.nextFD_mem hfd) _
  | tcpSocket hfd h =>
      exact h.fds ▸ (hp.takeSocket (Fds.nextFD_mem hfd) s.d.nextSock).congr rfl rfl rfl rfl
  | netlink hfd h => exact h.fds ▸ hp.takeNetlink (Fds.nextFD_mem hfd) _
  | closeSocket _ hsock h => exact h.fds ▸ hp.closeSocket (StdMap.mem_keys_of_find hsock)
  | closeNetlink hnl h => exact h.fds ▸ hp.closeNetlink (StdMap.mem_keys_of_find hnl)
  | closeRandom hfd h => exact h.fds ▸ hp.closeRandom hfd
  | nonblocking _ h => exact h.fds ▸ hp.congr rfl rfl rfl rfl
  | listenFailed _ _ h => exact h.fds ▸ hp.congr rfl rfl rfl rfl
  | listened _ _ h => exact h.fds ▸ hp.congr rfl rfl rfl rfl
  | @accepted fd fd' conn addr _ hfd h =>
      exact h.fds ▸ (hp.takeSocket (Fds.nextFD_mem hfd) conn).congr rfl rfl rfl rfl
  | connectNow _ h => exact h.fds ▸ hp.congr rfl rfl rfl rfl
  | connected _ _ h => exact h.fds ▸ hp.congr rfl rfl rfl rfl
  | lost _ h => exact h.fds ▸ hp
  | stored _ _ h => exact h.fds ▸ hp.congr rfl rfl rfl rfl
  | selectStored _ _ _ h => exact h.fds ▸ hp.congr rfl rfl rfl rfl
  | acceptedNow _ hfd h =>
      exact h.fds ▸ (hp.takeSocket (Fds.nextFD_mem hfd) s.d.nextSock).congr rfl rfl rfl rfl

theorem partition_of_run {app : App} {env : Env} {ls : List Label} {s : St}
    (h : run (St.initial app env) ls = some s) : s.d.fds.Partition :=
  Runs.run_invariant (I := fun s => s.d.fds.Partition)
    (fun _ _ _ hp hs => (table_step hs).partition hp) Fds.Partition.initial h

/-- `close` of an emulated descriptor makes its number available. -/
theorem handleClose_returns {s : St} {fd : Fd} (hp : s.d.fds.Partition)
    (hemu : s.d.fds.isEmulated fd = true) :
    wp (handleClose fd) (fun res s' => res ≠ .error →
      s'.d.fds.availableFDs = insert fd s.d.fds.availableFDs ∧ s'.d.fds.Partition) s := by
  have answer : ∀ s₁ : St, s₁.d.fds.availableFDs = insert fd s.d.fds.availableFDs →
      s₁.d.fds.Partition → wp (fake 0 .success) (fun res s' => res ≠ .error →
        s'.d.fds.availableFDs = insert fd s.d.fds.availableFDs ∧ s'.d.fds.Partition) s₁ :=
    fun s₁ ha h₁ => wp_fake (fun _ h => absurd rfl h) fun _ _ _ => ⟨ha, h₁⟩
  unfold handleClose
  simp only [wp_bind, wp_get, hemu, Bool.not_true, Bool.false_eq_true, if_false]
  cases hsock : s.d.fds.sockets.find fd with
  | some sock =>
      simp only [wp_bind, wp_ask, wp_modifyFds, wp_schedule]
      exact fun _ => answer _ rfl (hp.closeSocket (StdMap.mem_keys_of_find hsock))
  | none =>
      simp only [wp_ite, wp_bind, wp_modifyFds, wp_throw, implies_true, and_true]
      refine ⟨fun hnl => ?_, fun _ hr => ?_⟩
      · exact answer _ rfl (hp.closeNetlink (StdMap.mem_keys.mpr hnl))
      · exact answer _ rfl (hp.closeRandom hr)

/-- After every run the available numbers and the emulated descriptors divide the range; the next
number to be handed out names nothing, and closing a descriptor makes exactly its number
available. -/
theorem descriptors_partitioned {app : App} {env : Env} {ls : List Label} {s : St}
    (h : run (St.initial app env) ls = some s) :
    s.d.fds.Partition ∧
    (∀ fd, s.d.fds.nextFD = some fd → s.d.fds.isEmulated fd = false) ∧
    (∀ fd s₁ res s', s.d.fds.isEmulated fd = true → s₁.d = s.d →
      (handleClose fd).run s₁ = .ok (res, s') → res ≠ .error →
      fd ∉ s.d.fds.availableFDs ∧ s'.d.fds.availableFDs = insert fd s.d.fds.availableFDs ∧
        s'.d.fds.isEmulated fd = false ∧ s'.d.fds.Partition) := by
  have hp := partition_of_run h
  refine ⟨hp, fun fd hfd => hp.not_emulated (Fds.nextFD_mem hfd), ?_⟩
  intro fd s₁ res s' hemu hd hrun hres
  rw [← hd] at hp hemu ⊢
  obtain ⟨ha, hp'⟩ := (handleClose_returns hp hemu).elim hrun hres
  have hin : fd ∈ s'.d.fds.availableFDs := by
    rw [ha]
    exact Finset.mem_insert_self _ _
  refine ⟨fun hfd => ?_, ha, hp'.not_emulated hin, hp'⟩
  rw [hp.not_emulated hfd] at hemu
  cases hemu

/-- `socket`, `open("/dev/random")` and `close` of the socket. -/
def reuseEnv : Env :=
  .script [.entry (.socket AF_INET SOCK_DGRAM 0), .exit 0,
    .entry (.open ['/', 'd', 'e', 'v', '/', 'r', 'a', 'n', 'd', 'o', 'm']), .exit 0,
    .entry (.close 100), .exit 0] []

theorem descriptors_partitioned_reuse :
    ∃ s, run (St.initial {} reuseEnv) [⟨0, .fire 0⟩, ⟨0, .fire 0⟩, ⟨0, .fire 0⟩] = some s ∧
      s.d.fds.randomFds = {101} ∧ s.d.fds.nextFD = some 100 ∧ s.d.fds.Partition := by
  have hrun : (run (St.initial {} reuseEnv) [⟨0, .fire 0⟩, ⟨0, .fire 0⟩, ⟨0, .fire 0⟩]).any
      (fun s => s.d.fds.randomFds = {101} ∧ s.d.fds.nextFD = some 100) = true := by
    decide +kernel
  obtain ⟨s, hs, hview⟩ := (Option.any_eq_true _ _).mp hrun
  obtain ⟨hr, hn⟩ := of_decide_eq_true hview
  exact ⟨s, hs, hr, hn, (descriptors_partitioned hs).1⟩

end Grail
