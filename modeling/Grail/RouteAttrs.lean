import Grail.Requests

/-! # The attributes of a route message

What the loop over the attributes of `RTM_NEWROUTE` and `RTM_DELROUTE` reads.  The remaining
length `rbuflen` is a `size_t`: it wraps around when the message is shorter than its `rtmsg`, or
when the padding of the last attribute is not part of the message.  Then the loop goes on behind
the message.

`RouteRead` lists the reads, and `routeRequestAt_congr` shows that the request depends on nothing
else.  `Fits` says that every attribute lies inside the message with its padding and with the
four bytes that are read as its payload; exactly then the loop ends and nothing outside the
message is read (`route_reads_inside`). -/

namespace Grail

open Programs Bytes Loops Libnl

/-! ### What is read -/

/-- The attributes of which the loop reads the first four bytes of the payload. -/
def Rta.readsData (iifOk : Bool) : Rta → Bool
  | .dst _ => true
  | .gateway _ => true
  | .priority => true
  | .oif => true
  | .iif => iifOk
  | .src => false
  | .other _ => false

theorem Rta.known_of_readsData {iifOk : Bool} {rta : Rta} (h : rta.readsData iifOk = true) :
    rta.known iifOk = true := by
  cases rta with
  | src => cases h
  | other t => cases h
  | iif => exact h
  | _ => rfl

/-- The reads of one turn, as offsets and sizes: `rta_len`, `rta_type` and the payload. -/
def attrReads (iifOk : Bool) (hdr : Memory) (c : AttrCursor) : List (ℕ × ℕ) :=
  if c.rbuflen < 4 then []
  else if rtaOk hdr c then
    if (loadRta hdr c.cur_attr).readsData iifOk then
      [(c.cur_attr, 2), (c.cur_attr + 2, 2), (rtaData c.cur_attr, 4)]
    else [(c.cur_attr, 2), (c.cur_attr + 2, 2)]
  else [(c.cur_attr, 2)]

/-- The loop takes another turn. -/
def goesOn (iifOk : Bool) (hdr : Memory) (c : AttrCursor) : Bool :=
  rtaOk hdr c && (loadRta hdr c.cur_attr).known iifOk

/-- The reads of a route request: the fields of `rtmsg`, and what every turn of the loop reads. -/
inductive RouteRead (iifOk : Bool) (hdr : Memory) : ℕ → ℕ → Prop
  /-- `rtm_family` to `rtm_type` -/
  | field {i : ℕ} : 16 < nlmsgLen hdr → i < 8 → RouteRead iifOk hdr (amsg + i) 1
  | flags : 16 < nlmsgLen hdr → RouteRead iifOk hdr (amsg + 8) 4
  | attr {c : AttrCursor} {a k : ℕ} : 16 < nlmsgLen hdr → rtmNotify hdr = false →
      Visits (goesOn iifOk hdr) (rtaNext hdr) (firstAttr hdr) c → (a, k) ∈ attrReads iifOk hdr c →
      RouteRead iifOk hdr a k

/-- The loop ends, in the result of the loop or in a failed assertion. -/
def AttrLoopEnds (iifOk : Bool) (hdr : Memory) (c : AttrCursor) : Prop :=
  ∃ n, ∀ v v', (attrLoop iifOk hdr n c).run v ≠ .ok (none, v')

/-! ### Nothing else is read -/

/-- The two memories agree on the `k` bytes at `a`. -/
def Agree (m m' : Memory) (a k : ℕ) : Prop := ∀ i, a ≤ i → i < a + k → m i = m' i

section Congruence

variable {iifOk : Bool} {hdr hdr' : Memory} {c : AttrCursor}

theorem rtaOk_congr (h : ∀ a k, (a, k) ∈ attrReads iifOk hdr c → Agree hdr hdr' a k) :
    rtaOk hdr c = rtaOk hdr' c := by
  unfold rtaOk
  by_cases hlen : c.rbuflen < 4
  · have h4 : decide (4 ≤ c.rbuflen) = false := decide_eq_false (by omega)
    rw [h4, Bool.false_and, Bool.false_and, Bool.false_and, Bool.false_and]
  · have hmem : (c.cur_attr, 2) ∈ attrReads iifOk hdr c := by
      unfold attrReads
      rw [if_neg hlen]
      split_ifs <;> simp
    have hrta : rtaLen hdr c.cur_attr = rtaLen hdr' c.cur_attr := word_congr (h _ _ hmem)
    rw [hrta]

theorem loadRta_congr (hok : rtaOk hdr c = true)
    (h : ∀ a k, (a, k) ∈ attrReads iifOk hdr c → Agree hdr hdr' a k) :
    loadRta hdr c.cur_attr = loadRta hdr' c.cur_attr := by
  have hlen : ¬ c.rbuflen < 4 := by
    unfold rtaOk at hok
    simp only [Bool.and_eq_true, decide_eq_true_eq] at hok
    omega
  unfold attrReads at h
  rw [if_neg hlen, if_pos hok] at h
  have hty : rtaType hdr c.cur_attr = rtaType hdr' c.cur_attr := by
    refine word_congr (h _ _ ?_)
    split_ifs <;> simp
  have hdata : (loadRta hdr c.cur_attr).readsData iifOk = true →
      wordBE hdr 4 (rtaData c.cur_attr) = wordBE hdr' 4 (rtaData c.cur_attr) := by
    intro hread
    refine wordBE_congr (h _ _ ?_)
    rw [if_pos hread]
    simp
  unfold loadRta at hdata ⊢
  simp only [← hty] at hdata ⊢
  split_ifs at hdata ⊢ with h₁ h₂ h₃ <;> first | rfl | rw [hdata rfl]

/-- The loop depends only on what its turns read. -/
theorem attrLoop_congr (n : ℕ) (h : ∀ c', Visits (goesOn iifOk hdr) (rtaNext hdr) c c' →
      ∀ a k, (a, k) ∈ attrReads iifOk hdr c' → Agree hdr hdr' a k) (v : Option ℕ × Option ℕ) :
    (attrLoop iifOk hdr n c).run v = (attrLoop iifOk hdr' n c).run v := by
  induction n generalizing c v with
  | zero => rfl
  | succ n ih =>
      have hread := h c Visits.start
      have hrta := rtaOk_congr hread
      cases hok : rtaOk hdr c with
      | false => rw [attrLoop_stop hok, attrLoop_stop (hrta ▸ hok)]
      | true =>
          have hload := loadRta_congr hok hread
          have hlen : rtaLen hdr c.cur_attr = rtaLen hdr' c.cur_attr := by
            refine word_congr (hread _ _ ?_)
            unfold rtaOk at hok
            simp only [Bool.and_eq_true, decide_eq_true_eq] at hok
            unfold attrReads
            rw [if_neg (by omega)]
            split_ifs <;> simp
          have hnext : rtaNext hdr c = rtaNext hdr' c := by
            unfold rtaNext
            rw [hlen]
          rcases rtaSwitch_run iifOk (loadRta hdr c.cur_attr) [] v with
            ⟨hknown, v', hrun, _⟩ | ⟨_, hrun, _⟩
          · rw [attrLoop_turn hok hrun, attrLoop_turn (hrta ▸ hok) (hload ▸ hrun), ← hnext]
            refine ih (fun c' hv => h c' (hv.head ?_)) v'
            rw [goesOn, hok, hknown]
            rfl
          · rw [attrLoop_unknown hok hrun, attrLoop_unknown (hrta ▸ hok) (hload ▸ hrun)]

/-- A route request depends only on the length of the message and on what `RouteRead` lists. -/
theorem routeRequestAt_congr (hl : nlmsgLen hdr = nlmsgLen hdr')
    (h : ∀ a k, RouteRead iifOk hdr a k → Agree hdr hdr' a k) (n : ℕ) (nl : NlId)
    (edit : List RtEntry → ℕ → ℕ → ℕ → List RtEntry) :
    routeRequestAt n nl hdr iifOk edit = routeRequestAt n nl hdr' iifOk edit := by
  unfold routeRequestAt
  by_cases hlen : nlmsgLen hdr ≤ 16
  · rw [← hl, if_pos hlen, if_pos hlen]
    rfl
  · have hlen' : 16 < nlmsgLen hdr := by omega
    have hflags : rtmFlags hdr = rtmFlags hdr' := word_congr (h _ _ (.flags hlen'))
    have hnotify : rtmNotify hdr = rtmNotify hdr' := by
      unfold rtmNotify
      rw [hflags]
    have hdst : rtmDstLen hdr = rtmDstLen hdr' := word_congr (h _ _ (.field hlen' (by omega)))
    have hfirst : firstAttr hdr = firstAttr hdr' := by
      unfold firstAttr
      rw [hl]
    rw [← hl, if_neg hlen, if_neg hlen, ← hnotify, ← hdst, ← hfirst]
    cases hn : rtmNotify hdr with
    | true => rfl
    | false =>
        have hloop := attrLoop_congr (c := firstAttr hdr) n
          (fun c' hv a k hm => h a k (.attr hlen' hn hv hm)) (none, none)
        rw [hloop]

end Congruence

/-! ### Inside the message -/

/-- From `cur_attr` on, `len` bytes before the end of the message, every attribute that the loop
comes to lies inside the message: its payload, as far as it is read, and its padding. -/
inductive Fits (iifOk : Bool) (hdr : Memory) : ℕ → ℕ → Prop
  | done {cur_attr len : ℕ} : rtaOk hdr ⟨cur_attr, len⟩ = false → Fits iifOk hdr cur_attr len
  | unknown {cur_attr len : ℕ} : rtaOk hdr ⟨cur_attr, len⟩ = true →
      (loadRta hdr cur_attr).known iifOk = false → Fits iifOk hdr cur_attr len
  | attr {cur_attr len : ℕ} : rtaOk hdr ⟨cur_attr, len⟩ = true →
      (loadRta hdr cur_attr).known iifOk = true →
      ((loadRta hdr cur_attr).readsData iifOk = true → 8 ≤ len) →
      align4 (rtaLen hdr cur_attr) ≤ len →
      Fits iifOk hdr (cur_attr + align4 (rtaLen hdr cur_attr))
        (len - align4 (rtaLen hdr cur_attr)) → Fits iifOk hdr cur_attr len

section Inside

variable {iifOk : Bool} {hdr : Memory} {cur_attr len : ℕ}

/-- Without a wrap-around, `RTA_NEXT` moves towards the end of the message. -/
theorem rtaNext_eq (hlen : len < 2 ^ 64) (h : align4 (rtaLen hdr cur_attr) ≤ len) :
    rtaNext hdr ⟨cur_attr, len⟩ = ⟨cur_attr + align4 (rtaLen hdr cur_attr),
      len - align4 (rtaLen hdr cur_attr)⟩ := by
  simp only [rtaNext, AttrCursor.mk.injEq, true_and]
  omega

theorem rtaOk_iff {c : AttrCursor} : rtaOk hdr c = true ↔
    4 ≤ rtaLen hdr c.cur_attr ∧ rtaLen hdr c.cur_attr ≤ c.rbuflen := by
  unfold rtaOk
  simp only [Bool.and_eq_true, decide_eq_true_eq]
  omega

/-- What a turn reads lies before the end of the message, if its payload does. -/
theorem attrReads_inside {c : AttrCursor} {a k : ℕ}
    (hdata : rtaOk hdr c = true → (loadRta hdr c.cur_attr).readsData iifOk = true → 8 ≤ c.rbuflen)
    (h : (a, k) ∈ attrReads iifOk hdr c) : a + k ≤ c.cur_attr + c.rbuflen := by
  unfold attrReads rtaData at h
  split_ifs at h with hlen hok hread
  · exact absurd h List.not_mem_nil
  · have h8 := hdata hok hread
    simp only [List.mem_cons, Prod.mk.injEq, List.not_mem_nil, or_false] at h
    omega
  · simp only [List.mem_cons, Prod.mk.injEq, List.not_mem_nil, or_false] at h
    omega
  · simp only [List.mem_cons, Prod.mk.injEq, List.not_mem_nil, or_false] at h
    omega

theorem Fits.reads_inside (h : Fits iifOk hdr cur_attr len) (hlen : len < 2 ^ 64) :
    ∀ c, Visits (goesOn iifOk hdr) (rtaNext hdr) ⟨cur_attr, len⟩ c →
      ∀ a k, (a, k) ∈ attrReads iifOk hdr c → a + k ≤ cur_attr + len := by
  induction h with
  | done hok =>
      intro c hv a k hm
      rcases hv.cases_head with rfl | ⟨hgo, _⟩
      · exact attrReads_inside (fun h => absurd h (by rw [hok]; exact Bool.false_ne_true)) hm
      · rw [goesOn, hok] at hgo
        cases hgo
  | unknown hok hno =>
      intro c hv a k hm
      rcases hv.cases_head with rfl | ⟨hgo, _⟩
      · refine attrReads_inside (fun _ hread => ?_) hm
        have hyes := Rta.known_of_readsData hread
        rw [hno] at hyes
        cases hyes
      · rw [goesOn, hno, Bool.and_false] at hgo
        cases hgo
  | attr hok hknown hdata hal _ ih =>
      intro c hv a k hm
      rcases hv.cases_head with rfl | ⟨_, hv⟩
      · exact attrReads_inside (fun _ hread => hdata hread) hm
      · rw [rtaNext_eq hlen hal] at hv
        have hin := ih (by omega) c hv a k hm
        omega

theorem Fits.ends (h : Fits iifOk hdr cur_attr len) (hlen : len < 2 ^ 64) :
    AttrLoopEnds iifOk hdr ⟨cur_attr, len⟩ := by
  induction h with
  | done hok => exact ⟨1, fun v v' h => by rw [attrLoop_stop hok] at h; cases h⟩
  | @unknown cur_attr len hok hno =>
      refine ⟨1, fun v v' h => ?_⟩
      rcases rtaSwitch_run iifOk (loadRta hdr cur_attr) [] v with ⟨hyes, _⟩ | ⟨_, hrun, _⟩
      · rw [hno] at hyes
        cases hyes
      · rw [attrLoop_unknown hok hrun] at h
        cases h
  | @attr cur_attr len hok hknown hdata hal _ ih =>
      obtain ⟨n, hn⟩ := ih (by omega)
      refine ⟨n + 1, fun v v' h => ?_⟩
      rcases rtaSwitch_run iifOk (loadRta hdr cur_attr) [] v with ⟨_, w, hrun, _⟩ | ⟨hno, _⟩
      · rw [attrLoop_turn hok hrun, rtaNext_eq hlen hal] at h
        exact hn w v' h
      · rw [hknown] at hno
        cases hno

/-- If nothing behind the message is read, every attribute lies inside it. -/
theorem fits_of_reads {last : ℕ} (hlast : cur_attr + len = last) (hlen : len < 2 ^ 64)
    (h : ∀ c, Visits (goesOn iifOk hdr) (rtaNext hdr) ⟨cur_attr, len⟩ c →
      ∀ a k, (a, k) ∈ attrReads iifOk hdr c → a + k ≤ last) : Fits iifOk hdr cur_attr len := by
  induction hl : len using Nat.strong_induction_on generalizing cur_attr len with
  | _ l ih =>
      subst hl
      cases hok : rtaOk hdr ⟨cur_attr, len⟩ with
      | false => exact .done hok
      | true =>
          cases hknown : (loadRta hdr cur_attr).known iifOk with
          | false => exact .unknown hok hknown
          | true =>
              have hrta := rtaOk_iff.mp hok
              have hgo : goesOn iifOk hdr ⟨cur_attr, len⟩ = true := by
                rw [goesOn, hok, hknown]
                rfl
              have hdata : (loadRta hdr cur_attr).readsData iifOk = true → 8 ≤ len := by
                intro hread
                have hin := h _ Visits.start (rtaData cur_attr) 4 (by
                  unfold attrReads
                  rw [if_neg (by simp only at hrta ⊢; omega), if_pos hok, if_pos hread]
                  simp)
                unfold rtaData at hin
                omega
              have hle := le_align4 (rtaLen hdr cur_attr)
              have hal3 := align4_le (rtaLen hdr cur_attr)
              -- otherwise `rbuflen` wraps around and the next turn reads behind the message
              have hal : align4 (rtaLen hdr cur_attr) ≤ len := by
                by_contra hgt
                simp only at hrta
                have hin := h _ (Visits.start.turn hgo) (cur_attr + align4 (rtaLen hdr cur_attr)) 2 (by
                  have hcur : (rtaNext hdr ⟨cur_attr, len⟩).cur_attr =
                    cur_attr + align4 (rtaLen hdr cur_attr) := rfl
                  have hwrap : ¬ (rtaNext hdr ⟨cur_attr, len⟩).rbuflen < 4 := by
                    simp only [rtaNext]
                    omega
                  rw [attrReads, if_neg hwrap, hcur]
                  split_ifs <;> simp)
                omega
              refine .attr hok hknown hdata hal (ih _ ?_ ?_ ?_ ?_ rfl)
              · simp only at hrta
                omega
              · omega
              · omega
              · intro c hv
                rw [← rtaNext_eq hlen hal] at hv
                exact h c (hv.head hgo)

end Inside

/-- The message has a complete `rtmsg` and, unless `RTM_F_NOTIFY` fails the assertion before the
loop, its attributes fit. -/
def Contained (iifOk : Bool) (hdr : Memory) : Prop :=
  28 ≤ nlmsgLen hdr ∧ (rtmNotify hdr = true ∨ Fits iifOk hdr (amsg + 12) (nlmsgLen hdr - 28))

section Message

variable {iifOk : Bool} {hdr : Memory}

theorem firstAttr_eq (h28 : 28 ≤ nlmsgLen hdr) :
    firstAttr hdr = ⟨amsg + 12, nlmsgLen hdr - 28⟩ := by
  have hlt : nlmsgLen hdr < 256 ^ 4 := word_lt hdr 4 0
  simp only [firstAttr, AttrCursor.mk.injEq, true_and]
  omega

theorem Contained.ends (h : Contained iifOk hdr) (hn : rtmNotify hdr = false) :
    AttrLoopEnds iifOk hdr (firstAttr hdr) := by
  have hlt : nlmsgLen hdr < 256 ^ 4 := word_lt hdr 4 0
  obtain ⟨h28, hyes | hfits⟩ := h
  · rw [hn] at hyes
    cases hyes
  · rw [firstAttr_eq h28]
    exact hfits.ends (by omega)

theorem Contained.reads_inside (h : Contained iifOk hdr) {a k : ℕ}
    (hread : RouteRead iifOk hdr a k) : a + k ≤ nlmsgLen hdr := by
  have hlt : nlmsgLen hdr < 256 ^ 4 := word_lt hdr 4 0
  obtain ⟨h28, hfits⟩ := h
  cases hread with
  | field _ hi =>
      unfold amsg
      omega
  | flags _ =>
      unfold amsg
      omega
  | attr _ hn hv hm =>
      rcases hfits with hyes | hfits
      · rw [hn] at hyes
        cases hyes
      · rw [firstAttr_eq h28] at hv
        have hin := hfits.reads_inside (by omega) _ hv a k hm
        unfold amsg at hin
        omega

theorem contained_of_reads (h16 : 16 < nlmsgLen hdr)
    (h : ∀ a k, RouteRead iifOk hdr a k → a + k ≤ nlmsgLen hdr) : Contained iifOk hdr := by
  have hlt : nlmsgLen hdr < 256 ^ 4 := word_lt hdr 4 0
  have hflags := h _ _ (.flags h16)
  unfold amsg at hflags
  refine ⟨by omega, ?_⟩
  cases hn : rtmNotify hdr with
  | true => exact Or.inl rfl
  | false =>
      have hlast : amsg + 12 + (nlmsgLen hdr - 28) = nlmsgLen hdr := by
        unfold amsg
        omega
      refine Or.inr (fits_of_reads hlast (by omega) ?_)
      intro c hv a k hm
      rw [← firstAttr_eq (by omega)] at hv
      exact h a k (.attr h16 hn hv hm)

end Message

/-- The loop over the attributes ends and everything that the request reads lies inside the
message exactly if the message is contained.  `iifOk` is true for `RTM_NEWROUTE` and false for
`RTM_DELROUTE`. -/
theorem route_reads_inside (hdr : Memory) (iifOk : Bool) (h16 : 16 < nlmsgLen hdr) :
    ((rtmNotify hdr = false → AttrLoopEnds iifOk hdr (firstAttr hdr)) ∧
      ∀ a k, RouteRead iifOk hdr a k → a + k ≤ nlmsgLen hdr) ↔ Contained iifOk hdr := by
  constructor
  · rintro ⟨-, hreads⟩
    exact contained_of_reads h16 hreads
  · intro h
    exact ⟨h.ends, fun a k => h.reads_inside⟩

/-- A request for a route to 10.1.0.0/16 via 10.0.0.2. -/
def paddedRoute : Memory :=
  buffer ([44, 0, 0, 0, 24, 0, 5, 0, 1, 0, 0, 0, 0, 0, 0, 0, 2, 16, 0, 0, 254, 4, 0, 1, 0, 0, 0, 0] ++
    [8, 0, 1, 0, 10, 1, 0, 0, 8, 0, 5, 0, 10, 0, 0, 2]) fun _ => 0

theorem route_reads_inside_padded :
    (rtmNotify paddedRoute = false → AttrLoopEnds true paddedRoute (firstAttr paddedRoute)) ∧
      ∀ a k, RouteRead true paddedRoute a k → a + k ≤ nlmsgLen paddedRoute := by
  refine (route_reads_inside paddedRoute true ?_).mpr ⟨?_, Or.inr ?_⟩
  · decide +kernel
  · decide +kernel
  · refine .attr ?_ ?_ ?_ ?_ (.attr ?_ ?_ ?_ ?_ (.done ?_))
    all_goals decide +kernel

/-- The last attribute of the message has a payload of one byte and no padding. -/
def unpaddedRoute : Memory :=
  buffer ([33, 0, 0, 0, 24, 0, 5, 0, 1, 0, 0, 0, 0, 0, 0, 0, 2, 16, 0, 0, 254, 4, 0, 1, 0, 0, 0, 0] ++
    [5, 0, 2, 0, 7]) fun _ => 0

/-- The loop reads the header of an attribute three bytes behind the message. -/
theorem unpadded_reads_outside :
    nlmsgOk unpaddedRoute 33 = true ∧ nlmsgType unpaddedRoute = RTM_NEWROUTE ∧
    16 < nlmsgLen unpaddedRoute ∧
    ¬ ((rtmNotify unpaddedRoute = false →
        AttrLoopEnds true unpaddedRoute (firstAttr unpaddedRoute)) ∧
      ∀ a k, RouteRead true unpaddedRoute a k → a + k ≤ nlmsgLen unpaddedRoute) := by
  refine ⟨by decide +kernel, by decide +kernel, by decide +kernel, ?_⟩
  rintro ⟨-, hreads⟩
  have hgo : goesOn true unpaddedRoute (firstAttr unpaddedRoute) = true := by decide +kernel
  have hread : RouteRead true unpaddedRoute 36 2 := by
    refine .attr ?_ ?_ (Visits.start.turn hgo) ?_
    all_goals decide +kernel
  have hlen : nlmsgLen unpaddedRoute = 33 := by decide +kernel
  have hin := hreads 36 2 hread
  omega

end Grail
