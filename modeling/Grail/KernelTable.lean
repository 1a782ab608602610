import Grail.Allocation
import Grail.Executed

/-! # The kernel's descriptor table

The kernel has a descriptor table of its own for the tracee.  `KernelTable C T₀ es T` says that the
numbers `T` can be open after the calls `es` (the last one first) that the kernel executed,
when `T₀` were open before: a call that opens a descriptor is given the smallest number that is
not open.

The emulator hands out the numbers 100..199 and does not know which numbers are open in the kernel.
The two tables have no number in common as long as the kernel finds a free number below 100
(`kernelTable_apart`). -/

namespace Grail

/-- How many descriptors a call opens, and from which number on. -/
def Syscall.opens : Syscall → ℕ × Fd
  | .open _ => (1, 0)
  | .openat _ _ => (1, 0)
  | .dup _ => (1, 0)
  | .fcntl _ cmd arg => if cmd = F_DUPFD ∨ cmd = F_DUPFD_CLOEXEC then (1, arg) else (0, 0)
  | .pipe2 _ => (2, 0)
  | .socket _ _ _ => (1, 0)
  | .accept _ _ => (1, 0)
  | _ => (0, 0)

/-- The numbers `fds` are opened one after the other, each the smallest from `lo` on that is not
open. -/
def Opens (lo : Fd) : List Fd → Finset Fd → Finset Fd → Prop
  | [], T, T' => T' = T
  | fd :: fds, T, T' => IsLeast {k | lo ≤ k ∧ k ∉ T} fd ∧ Opens lo fds (insert fd T) T'

/-- What a call does to the kernel's table. -/
inductive KernelStep (T : Finset Fd) (e : Executed) : Finset Fd → Prop
  /-- one descriptor is opened, its number is the result -/
  | opened {lo fd : Fd} {T' : Finset Fd} : e.call.opens = (1, lo) →
      (∀ v, e.retval = some v → v = fd) → Opens lo [fd] T T' → KernelStep T e T'
  /-- `pipe2` succeeds -/
  | piped {pipefd : Fd × Fd} {fd fd' : Fd} {T' : Finset Fd} : e.call = .pipe2 pipefd →
      (∀ v, e.retval = some v → v = 0) → Opens 0 [fd, fd'] T T' → KernelStep T e T'
  | closed {fd : Fd} : e.call = .close fd → KernelStep T e (T.erase fd)
  /-- the descriptors that are not inherited are closed -/
  | execve {T' : Finset Fd} : e.call = .plain .execve → T' ⊆ T → KernelStep T e T'
  | same : e.call.opens.1 = 0 ∨ (∀ v, e.retval = some v → v < 0) → KernelStep T e T

/-- The numbers that can be open in the kernel after the calls, each made with a table that
satisfies `C`. -/
inductive KernelTable (C : Finset Fd → Syscall → Prop) (T₀ : Finset Fd) :
    List Executed → Finset Fd → Prop
  | start : KernelTable C T₀ [] T₀
  | exec {e : Executed} {es : List Executed} {T T' : Finset Fd} : KernelTable C T₀ es T →
      C T e.call → KernelStep T e T' → KernelTable C T₀ (e :: es) T'

/-- The numbers below 100 suffice for the descriptors that a call opens, or it asks for numbers
above those of the emulator. -/
def Room (T : Finset Fd) (call : Syscall) : Prop :=
  call.opens.1 ≤ (Finset.Ico call.opens.2 100 \ T).card ∨ 200 ≤ call.opens.2

theorem isLeast_outside {T : Finset ℤ} {lo fd : ℤ} {n : ℕ}
    (hroom : n + 1 ≤ (Finset.Ico lo 100 \ T).card ∨ 200 ≤ lo)
    (h : IsLeast {k | lo ≤ k ∧ k ∉ T} fd) :
    fd ∉ numbers ∧ (n ≤ (Finset.Ico lo 100 \ insert fd T).card ∨ 200 ≤ lo) := by
  obtain ⟨⟨hlo, hfd⟩, hleast⟩ := h
  rw [mem_numbers]
  rcases hroom with hcard | hlo'
  · have hpos : 0 < (Finset.Ico lo 100 \ T).card := by omega
    obtain ⟨k, hk⟩ := Finset.card_pos.mp hpos
    rw [Finset.mem_sdiff, Finset.mem_Ico] at hk
    have hle : fd ≤ k := hleast ⟨hk.1.1, hk.2⟩
    refine ⟨by omega, Or.inl ?_⟩
    have hmem : fd ∈ Finset.Ico lo 100 \ T := by
      rw [Finset.mem_sdiff, Finset.mem_Ico]
      exact ⟨⟨hlo, by omega⟩, hfd⟩
    rw [Finset.sdiff_insert, Finset.card_erase_of_mem hmem]
    omega
  · exact ⟨by omega, Or.inr hlo'⟩

theorem Opens.apart {lo : Fd} {fds : List Fd} {T T' : Finset Fd} (h : Opens lo fds T T')
    (hroom : fds.length ≤ (Finset.Ico lo 100 \ T).card ∨ 200 ≤ lo) (hT : Disjoint T numbers) :
    Disjoint T' numbers := by
  induction fds generalizing T with
  | nil =>
      cases h
      exact hT
  | cons fd fds ih =>
      obtain ⟨hfd, hroom⟩ := isLeast_outside hroom h.1
      exact ih h.2 hroom (Finset.disjoint_insert_left.mpr ⟨hfd, hT⟩)

theorem KernelStep.apart {T T' : Finset Fd} {e : Executed} (h : KernelStep T e T')
    (hroom : Room T e.call) (hT : Disjoint T numbers) : Disjoint T' numbers := by
  unfold Room at hroom
  cases h with
  | opened hopens _ ho =>
      rw [hopens] at hroom
      exact ho.apart hroom hT
  | piped hcall _ ho =>
      rw [hcall] at hroom
      exact ho.apart hroom hT
  | closed => exact Finset.disjoint_of_subset_left (Finset.erase_subset _ _) hT
  | execve _ hsub => exact Finset.disjoint_of_subset_left hsub hT
  | same => exact hT

theorem KernelTable.apart {T₀ T : Finset Fd} {es : List Executed} (h : KernelTable Room T₀ es T)
    (hT₀ : Disjoint T₀ numbers) : Disjoint T numbers := by
  induction h with
  | start => exact hT₀
  | exec _ hroom hs ih => exact hs.apart hroom ih

namespace Fds

/-- The live emulated descriptors. -/
def live (f : Fds) : Finset Fd := f.sockets.keys ∪ f.netlinks.keys ∪ f.randomFds

theorem mem_live {f : Fds} {fd : Fd} : fd ∈ f.live ↔ f.isEmulated fd = true := by
  rw [isEmulated_iff, live, Finset.mem_union, Finset.mem_union]
  tauto

theorem Partition.live_subset {f : Fds} (hp : f.Partition) : f.live ⊆ numbers := by
  rw [← hp.union, Finset.union_assoc, Finset.union_assoc, ← Finset.union_assoc f.sockets.keys]
  exact Finset.subset_union_right

end Fds

/-- If every call that opens a descriptor finds a free number below 100, no number is open in the
kernel and emulated at the same time, and `FdIsEmulatedSocket` tells the two kinds apart. -/
theorem kernelTable_apart {app : App} {env : Env} {ls : List Label} {s : St} {T₀ T : Finset Fd}
    (hrun : run (St.initial app env) ls = some s) (hT₀ : Disjoint T₀ numbers)
    (hk : KernelTable Room T₀ s.c.executed T) :
    Disjoint T s.d.fds.live ∧
      ∀ fd ∈ T ∪ s.d.fds.live, (s.d.fds.isEmulated fd = true ↔ fd ∉ T) := by
  have hapart : Disjoint T s.d.fds.live :=
    Finset.disjoint_of_subset_right (partition_of_run hrun).live_subset (hk.apart hT₀)
  refine ⟨hapart, fun fd hfd => ?_⟩
  rw [← Fds.mem_live]
  constructor
  · intro hl
    exact Finset.disjoint_right.mp hapart hl
  · intro hT
    exact (Finset.mem_union.mp hfd).resolve_left hT

theorem insert_Ico (n : ℕ) :
    insert (n : ℤ) (Finset.Ico 0 (n : ℤ)) = Finset.Ico 0 ((n + 1 : ℕ) : ℤ) := by
  ext k
  simp only [Finset.mem_insert, Finset.mem_Ico]
  omega

/-- With the numbers below `n` open, the next one is `n`. -/
theorem isLeast_Ico (n : ℕ) : IsLeast {k : ℤ | 0 ≤ k ∧ k ∉ Finset.Ico 0 (n : ℤ)} n := by
  refine ⟨by simp, fun k hk => ?_⟩
  have hk : 0 ≤ k ∧ k ∉ Finset.Ico 0 (n : ℤ) := hk
  rw [Finset.mem_Ico] at hk
  omega

theorem opens_Ico {n : ℕ} {fds : List Fd} {T : Finset Fd}
    (h : Opens 0 fds (Finset.Ico 0 ((n + 1 : ℕ) : ℤ)) T) :
    Opens 0 ((n : ℤ) :: fds) (Finset.Ico 0 (n : ℤ)) T := by
  refine ⟨isLeast_Ico n, ?_⟩
  rw [insert_Ico]
  exact h

theorem kernelTable_apart_files :
    ∃ s, run (St.initial {} filesEnv) [⟨0, .fire 0⟩, ⟨0, .fire 0⟩] = some s ∧
      s.d.fds.live = {100} ∧ Disjoint (Finset.Ico 0 4) s.d.fds.live := by
  have hrun : (run (St.initial {} filesEnv) [⟨0, .fire 0⟩, ⟨0, .fire 0⟩]).any
      (fun s => s.c.executed = [⟨.openat (-100) ['a'], true, some 3⟩] ∧ s.d.fds.live = {100}) =
        true := by
    decide +kernel
  obtain ⟨s, hs, hview⟩ := (Option.any_eq_true _ _).mp hrun
  obtain ⟨he, hl⟩ := of_decide_eq_true hview
  have hk : KernelTable Room (Finset.Ico 0 3) s.c.executed (Finset.Ico 0 4) := by
    rw [he]
    have hroom : Room (Finset.Ico 0 3) (.openat (-100) ['a']) := Or.inl (by decide +kernel)
    have ho : Opens 0 [3] (Finset.Ico 0 3) (Finset.Ico 0 4) := opens_Ico (n := 3) rfl
    exact .exec .start hroom (.opened rfl (fun _ hv => (Option.some.inj hv).symm) ho)
  exact ⟨s, hs, hl, (kernelTable_apart hs (by decide +kernel) hk).1⟩

/-- A socket is created, then one pipe after the other. -/
def pipesEnv : Env where
  wait
    | 0 => .entry (.socket AF_INET SOCK_DGRAM 0)
    | 1 => .exit 0
    | i => if i % 2 = 0 then .entry (.pipe2 (0, 0)) else .exit 0
  ns3 _ := {}

theorem kernelTable_pipes (n : ℕ) (pipefd : Fd × Fd) :
    KernelTable (fun _ _ => True) (Finset.Ico 0 3)
      (List.replicate n ⟨.pipe2 pipefd, true, some 0⟩) (Finset.Ico 0 ((2 * n + 3 : ℕ) : ℤ)) := by
  induction n with
  | zero => exact .start
  | succ n ih =>
      have ho : Opens 0 [((2 * n + 3 : ℕ) : ℤ), ((2 * n + 4 : ℕ) : ℤ)]
          (Finset.Ico 0 ((2 * n + 3 : ℕ) : ℤ)) (Finset.Ico 0 ((2 * (n + 1) + 3 : ℕ) : ℤ)) :=
        opens_Ico (opens_Ico rfl)
      exact .exec ih trivial (.piped rfl (fun _ hv => (Option.some.inj hv).symm) ho)

/-- The last of 49 pipes is given the number of the socket. -/
theorem pipe_overlaps_socket :
    ¬ ∀ app env ls s T, run (St.initial app env) ls = some s →
      KernelTable (fun _ _ => True) (Finset.Ico 0 3) s.c.executed T → Disjoint T s.d.fds.live := by
  intro hall
  have hrun : (run (St.initial {} pipesEnv) (List.replicate 50 ⟨0, .fire 0⟩)).any
      (fun s => s.c.executed = List.replicate 49 ⟨.pipe2 (0, 0), true, some 0⟩ ∧
        s.d.fds.live = {100}) = true := by
    decide +kernel
  obtain ⟨s, hs, hview⟩ := (Option.any_eq_true _ _).mp hrun
  obtain ⟨he, hl⟩ := of_decide_eq_true hview
  have hk := kernelTable_pipes 49 (0, 0)
  rw [← he] at hk
  have hdisj := hall _ _ _ s _ hs hk
  rw [hl, Finset.disjoint_singleton_right, Finset.mem_Ico] at hdisj
  exact hdisj ⟨by decide, by decide⟩

end Grail
