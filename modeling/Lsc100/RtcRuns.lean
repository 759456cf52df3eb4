import Lsc100.Rtc

/-! What the transfers with the clock chip leave when they break off: a time that has been set or
read is made of two, the first bytes of one and the rest of the other.
-/

namespace Lsc100

namespace Sd2505

/-- The registers below the control registers take what is written to them. -/
def unlocked (c : Sd2505) : Prop :=
  c.regs sd2505AddrCtr2 &&& 0x80 = 0x80 ∧ c.regs sd2505AddrCtr1 &&& 0x84 = 0x84

theorem writable_of_lt (c : Sd2505) {reg : Nat} (h : reg < sd2505AddrCtr1) :
    c.writable reg = true ↔ c.unlocked := by
  simp only [sd2505AddrCtr1] at h
  have h1 : reg ≠ 0x0F := by omega
  have h2 : reg ≠ 0x10 := by omega
  simp [writable, unlocked, sd2505AddrCtr1, sd2505AddrCtr2, h1, h2]

@[simp] theorem store_ptr (c : Sd2505) (b : UInt8) : (c.store b).ptr = c.ptr + 1 := rfl

theorem store_regs_of_ne {c : Sd2505} {i : Nat} (b : UInt8) (h : i ≠ c.ptr) :
    (c.store b).regs i = c.regs i := by
  simp only [store]
  split
  · exact Function.update_of_ne h _ _
  · rfl

theorem foldl_store_regs_of_notMem (bs : List UInt8) {c : Sd2505} {i : Nat}
    (h : ∀ j < bs.length, i ≠ c.ptr + j) : (bs.foldl store c).regs i = c.regs i := by
  induction bs generalizing c with
  | nil => rfl
  | cons b bs ih =>
    have hrest : ∀ j < bs.length, i ≠ (c.store b).ptr + j := by
      intro j hj
      have := h (j + 1) (by simp; omega)
      simp only [store_ptr]
      omega
    rw [List.foldl_cons, ih hrest, store_regs_of_ne b (h 0 (by simp))]

theorem unlocked_foldl_store {bs : List UInt8} {c : Sd2505}
    (h : c.ptr + bs.length ≤ sd2505AddrCtr1) : (bs.foldl store c).unlocked ↔ c.unlocked := by
  simp only [sd2505AddrCtr1] at h
  simp only [unlocked, sd2505AddrCtr1, sd2505AddrCtr2]
  rw [foldl_store_regs_of_notMem bs (by omega), foldl_store_regs_of_notMem bs (by omega)]

theorem foldl_store_of_locked {bs : List UInt8} {c : Sd2505}
    (h : c.ptr + bs.length ≤ sd2505AddrCtr1) (hlocked : ¬ c.unlocked) :
    (bs.foldl store c).regs = c.regs := by
  induction bs generalizing c with
  | nil => rfl
  | cons b bs ih =>
    simp only [List.length_cons] at h
    have hstore : (c.store b).regs = c.regs := by
      simp [store, (c.writable_of_lt (show c.ptr < sd2505AddrCtr1 by omega)).not.mpr hlocked]
    have hstill : ¬ (c.store b).unlocked := by
      simpa only [unlocked, hstore] using hlocked
    rw [List.foldl_cons, ih (by simp only [store_ptr]; omega) hstill, hstore]

theorem foldl_store_of_unlocked {bs : List UInt8} {c : Sd2505}
    (h : c.ptr + bs.length ≤ sd2505AddrCtr1) (hunlocked : c.unlocked) {j : Nat}
    (hj : j < bs.length) : (bs.foldl store c).regs (c.ptr + j) = bs[j] := by
  induction bs generalizing c j with
  | nil => simp at hj
  | cons b bs ih =>
    simp only [List.length_cons] at h hj
    have hstill : (c.store b).unlocked :=
      (unlocked_foldl_store (show c.ptr + [b].length ≤ _ by simp; omega)).mpr hunlocked
    cases j with
    | zero =>
      rw [List.foldl_cons, foldl_store_regs_of_notMem bs (by intro j _; simp; omega)]
      simp [store, (c.writable_of_lt (show c.ptr < sd2505AddrCtr1 by omega)).mpr hunlocked]
    | succ j =>
      have hrest := ih (c := c.store b) (j := j) (by simp only [store_ptr]; omega) hstill (by omega)
      rw [store_ptr] at hrest
      rw [List.foldl_cons, List.getElem_cons_succ, ← hrest]
      congr 1
      omega

theorem bytes_time (c : Sd2505) : c.time.bytes = (List.range 7).map c.regs := rfl

/-- Locked or not, the bytes of a time that have got through make the first ones of it. -/
theorem foldl_store_time (bs : List UInt8) {c : Sd2505} (hptr : c.ptr = 0)
    (hlength : bs.length ≤ 7) : ∃ k ≤ bs.length, (c.unlocked → k = bs.length) ∧
      (bs.foldl store c).time.bytes = bs.take k ++ c.time.bytes.drop k := by
  have hctr : c.ptr + bs.length ≤ sd2505AddrCtr1 := by
    simp only [sd2505AddrCtr1]
    omega
  by_cases hunlocked : c.unlocked
  · refine ⟨bs.length, le_rfl, fun _ => rfl, ?_⟩
    have hnew : ∀ i (hi : i < bs.length), (bs.foldl store c).regs i = bs[i] := by
      intro i hi
      have := foldl_store_of_unlocked hctr hunlocked hi
      rwa [hptr, Nat.zero_add] at this
    have hold : ∀ i, bs.length ≤ i → (bs.foldl store c).regs i = c.regs i := fun i hi =>
      foldl_store_regs_of_notMem bs (by omega)
    rw [bytes_time, bytes_time, List.take_length]
    refine List.ext_getElem (by simp; omega) fun i hi _ => ?_
    simp only [List.length_map, List.length_range] at hi
    by_cases hk : i < bs.length
    · simp [hk, hnew i hk]
    · simp [List.getElem_append, hk, hold i (by omega), Nat.add_sub_cancel' (Nat.le_of_not_lt hk)]
  · refine ⟨0, Nat.zero_le _, fun h => absurd h hunlocked, ?_⟩
    simp [time, foldl_store_of_locked hctr hunlocked]

end Sd2505

section Driver

variable (w : Nat → I2cWait)

@[simp] theorem i2cWaitFlag_chip (s : I2cBus) : (i2cWaitFlag w s).2.chip = s.chip := rfl

@[simp] theorem i2cWaitFlag_ack (s : I2cBus) : (i2cWaitFlag w s).2.ack = s.ack := rfl

theorem i2cSend_chip (bs : List UInt8) (s : I2cBus) :
    (i2cSend w bs s).2.ack = s.ack ∧ ∃ k ≤ bs.length, ((i2cSend w bs s).1 = true → k = bs.length) ∧
      (i2cSend w bs s).2.chip = (bs.take k).foldl .store s.chip := by
  induction bs generalizing s with
  | nil => exact ⟨rfl, 0, le_rfl, fun _ => rfl, rfl⟩
  | cons b bs ih =>
    simp only [i2cSend]
    cases w s.step with
    | ok =>
      obtain ⟨hack, k, hk, hok, hchip⟩ := ih { s with chip := s.chip.store b, step := s.step + 1 }
      exact ⟨hack, k + 1, by simpa using hk, fun h => by simp [hok h], by simpa using hchip⟩
    | late => exact ⟨rfl, 1, by simp, by simp, rfl⟩
    | lost => exact ⟨rfl, 0, by simp, by simp, rfl⟩

theorem i2cSelect_chip (reg : Nat) (s : I2cBus) :
    (i2cSelect w reg s).2.ack = s.ack ∧ (i2cSelect w reg s).2.chip.regs = s.chip.regs ∧
      ((i2cSelect w reg s).1 = true → (i2cSelect w reg s).2.chip.ptr = reg) := by
  simp only [i2cSelect]
  split
  · split
    · split <;> simp
    · simp
  · simp

/-- A writing puts the first bytes from `reg` on, all of them when it succeeds. -/
theorem i2cDriverWrite_chip (reg : Nat) {data : List UInt8} (hdata : data ≠ []) (s : I2cBus) :
    (i2cDriverWrite w reg data s).2.ack = s.ack ∧ ∃ c : Sd2505, c.regs = s.chip.regs ∧
      c.ptr = reg ∧ ∃ k ≤ data.length,
        ((i2cDriverWrite w reg data s).1 = true → k = data.length) ∧
        (i2cDriverWrite w reg data s).2.chip.regs = ((data.take k).foldl .store c).regs := by
  obtain ⟨hack, hregs, hptr⟩ := i2cSelect_chip w reg s
  simp only [i2cDriverWrite, if_neg hdata]
  split
  next hok =>
    obtain ⟨hack', k, hk, hall, hchip⟩ := i2cSend_chip w data (i2cSelect w reg s).2
    exact ⟨hack'.trans hack, _, hregs, hptr hok, k, hk, hall, congrArg Sd2505.regs hchip⟩
  next =>
    exact ⟨hack, ⟨s.chip.regs, reg⟩, rfl, rfl, 0, Nat.zero_le _, by simp, hregs⟩

theorem i2cDriverWrite_regs {reg : Nat} {data : List UInt8} (hdata : data ≠ []) (s : I2cBus)
    {i : Nat} (hi : i < reg ∨ reg + data.length ≤ i) :
    (i2cDriverWrite w reg data s).2.chip.regs i = s.chip.regs i := by
  obtain ⟨-, c, hregs, hptr, k, hk, -, hchip⟩ := i2cDriverWrite_chip w reg hdata s
  rw [hchip, Sd2505.foldl_store_regs_of_notMem, hregs]
  intro j hj
  simp only [List.length_take] at hj
  omega

/-- Opening and closing the lock touches the two control registers only. -/
def SameButLock (s s' : I2cBus) : Prop :=
  s'.ack = s.ack ∧
    ∀ i, i ≠ sd2505AddrCtr1 → i ≠ sd2505AddrCtr2 → s'.chip.regs i = s.chip.regs i

theorem SameButLock.trans {s s' s'' : I2cBus} (h : SameButLock s s') (h' : SameButLock s' s'') :
    SameButLock s s'' :=
  ⟨h'.1.trans h.1, fun i h1 h2 => (h'.2 i h1 h2).trans (h.2 i h1 h2)⟩

theorem SameButLock.time {s s' : I2cBus} (h : SameButLock s s') : s'.chip.time = s.chip.time := by
  have hregs : ∀ i < 7, s'.chip.regs i = s.chip.regs i := fun i hi =>
    h.2 i (by simp only [sd2505AddrCtr1]; omega) (by simp only [sd2505AddrCtr2]; omega)
  simp [Sd2505.time, hregs]

theorem i2cDriverWrite_ctr {reg : Nat} (hreg : reg = sd2505AddrCtr1 ∨ reg = sd2505AddrCtr2)
    (b : UInt8) (s : I2cBus) : SameButLock s (i2cDriverWrite w reg [b] s).2 := by
  refine ⟨(i2cDriverWrite_chip w reg (by simp) s).1, fun i h1 h2 => ?_⟩
  apply i2cDriverWrite_regs w (by simp)
  rcases hreg with rfl | rfl <;> simp <;> omega

theorem sd2505WriteOn_sameButLock (s : I2cBus) : SameButLock s (sd2505WriteOn w s).2 := by
  have hctr2 := i2cDriverWrite_ctr w (.inr rfl) 0x80 s
  simp only [sd2505WriteOn]
  split
  · exact hctr2.trans (i2cDriverWrite_ctr w (.inl rfl) _ _)
  · exact hctr2

theorem sd2505WriteOn_unlocks {s : I2cBus} (hok : (sd2505WriteOn w s).1 = true) :
    (sd2505WriteOn w s).2.chip.unlocked := by
  simp only [sd2505WriteOn] at hok ⊢
  split at hok
  next hfirst =>
    rw [if_pos hfirst]
    obtain ⟨-, c, hregs, hptr, k, -, hall, hchip⟩ :=
      i2cDriverWrite_chip w sd2505AddrCtr2 (show [(0x80 : UInt8)] ≠ [] by simp) s
    obtain ⟨-, c', hregs', hptr', k', -, hall', hchip'⟩ :=
      i2cDriverWrite_chip w sd2505AddrCtr1 (show [(0xff : UInt8)] ≠ [] by simp)
        (i2cDriverWrite w sd2505AddrCtr2 [0x80] s).2
    obtain rfl := hall hfirst
    obtain rfl := hall' hok
    have hwrtc1 : c'.regs sd2505AddrCtr2 = 0x80 := by
      rw [hregs', hchip]
      simp [Sd2505.store, Sd2505.writable, hptr]
    rw [Sd2505.unlocked, hchip']
    simp only [List.length_cons, List.length_nil, List.take_succ_cons, List.take_zero,
      List.foldl_cons, List.foldl_nil]
    rw [Sd2505.store_regs_of_ne _ (by simp [hptr', sd2505AddrCtr1, sd2505AddrCtr2]), hwrtc1]
    have hopen : (0xff : UInt8) &&& 0x84 = 0x84 := by decide
    simpa [Sd2505.store, Sd2505.writable, hptr', hwrtc1] using hopen
  next => exact absurd hok (by simp)

theorem sd2505WriteOff_sameButLock (s : I2cBus) : SameButLock s (sd2505WriteOff w s).2 := by
  have hctr1 := i2cDriverWrite_ctr w (.inl rfl) 0x7b s
  simp only [sd2505WriteOff]
  split
  · exact hctr1.trans (i2cDriverWrite_ctr w (.inr rfl) _ _)
  · exact hctr1

theorem sd2505SetTime_chip (t : RtcTime) (s : I2cBus) :
    (sd2505SetTime w t s).2.ack = s.ack ∧
      (∀ i, 7 ≤ i → i ≠ sd2505AddrCtr1 → i ≠ sd2505AddrCtr2 →
        (sd2505SetTime w t s).2.chip.regs i = s.chip.regs i) ∧
      ∃ k ≤ 7, ((sd2505SetTime w t s).1 = true → (sd2505WriteOn w s).1 = true → k = 7) ∧
        (sd2505SetTime w t s).2.chip.time.bytes =
          t.bytes.take k ++ s.chip.time.bytes.drop k := by
  have hdata : t.bytes ≠ [] := by simp [RtcTime.bytes]
  have hon := sd2505WriteOn_sameButLock w s
  have hoff := sd2505WriteOff_sameButLock w
    (i2cDriverWrite w sd2505AddrSecond t.bytes (sd2505WriteOn w s).2).2
  obtain ⟨hack, c, hregs, hptr, j, hj, hall, hchip⟩ :=
    i2cDriverWrite_chip w sd2505AddrSecond hdata (sd2505WriteOn w s).2
  obtain ⟨k, hk, hfull, hbytes⟩ := Sd2505.foldl_store_time (t.bytes.take j) (c := c) hptr
    (by simp [RtcTime.bytes])
  refine ⟨hoff.1.trans (hack.trans hon.1), fun i hi h1 h2 => ?_, k, ?_, fun hok hopen => ?_, ?_⟩
  · calc (sd2505SetTime w t s).2.chip.regs i
        = (i2cDriverWrite w sd2505AddrSecond t.bytes (sd2505WriteOn w s).2).2.chip.regs i :=
          hoff.2 i h1 h2
      _ = (sd2505WriteOn w s).2.chip.regs i :=
          i2cDriverWrite_regs w hdata _ (.inr (by simpa [RtcTime.bytes, sd2505AddrSecond] using hi))
      _ = s.chip.regs i := hon.2 i h1 h2
  · simp only [List.length_take] at hk
    have := hj
    simp only [RtcTime.bytes, List.length_cons, List.length_nil] at this
    omega
  · obtain rfl := hall hok
    have hopened := sd2505WriteOn_unlocks w hopen
    rw [Sd2505.unlocked, ← hregs] at hopened
    simpa [RtcTime.bytes] using hfull hopened
  · have htime : (sd2505WriteOn w s).2.chip.time = s.chip.time := hon.time
    calc (sd2505SetTime w t s).2.chip.time.bytes
        = ((t.bytes.take j).foldl Sd2505.store c).time.bytes := by
          rw [show (sd2505SetTime w t s).2.chip.time = _ from hoff.time]
          simp only [Sd2505.bytes_time, hchip]
      _ = (t.bytes.take j).take k ++ c.time.bytes.drop k := hbytes
      _ = t.bytes.take k ++ s.chip.time.bytes.drop k := by
          rw [List.take_take, min_eq_left (by simp only [List.length_take] at hk; omega),
            ← htime, Sd2505.bytes_time, Sd2505.bytes_time, hregs]

theorem i2cRecv_regs (n : Nat) (talking : Bool) (s : I2cBus) :
    (i2cRecv w n talking s).2.chip.regs = s.chip.regs := by
  induction n generalizing talking s with
  | zero => rfl
  | succ n ih =>
    simp only [i2cRecv]
    split
    · rw [ih]
      split <;> rfl
    · split <;> rfl

theorem i2cRecv_bytes (n : Nat) {s : I2cBus} (hack : s.ack = true) :
    ∃ k ≤ n, ((i2cRecv w n true s).1.1 = true ↔ k = n) ∧
      (i2cRecv w n true s).1.2 = (List.range k).map fun i => s.chip.regs (s.chip.ptr + i) := by
  induction n generalizing s with
  | zero => exact ⟨0, le_rfl, by simp [i2cRecv], rfl⟩
  | succ n ih =>
    simp only [i2cRecv]
    generalize hs' : (if n = 0 then { s with ack := false } else s) = s'
    have hchip : s'.chip = s.chip := by
      rw [← hs']
      split <;> rfl
    cases w s'.step with
    | ok =>
      cases n with
      | zero => exact ⟨1, le_rfl, by simp [i2cRecv], by simp [i2cRecv, hchip]⟩
      | succ n =>
        obtain rfl : s = s' := by simpa using hs'
        obtain ⟨k, hk, hok, hbytes⟩ := ih
          (s := { s with chip := { s.chip with ptr := s.chip.ptr + 1 }, step := s.step + 1 }) hack
        refine ⟨k + 1, by omega, ?_, ?_⟩
        · simpa [hack] using hok
        · simpa [hack, List.range_succ_eq_map, Function.comp_def, Nat.add_assoc, Nat.add_comm 1]
            using hbytes
    | late => exact ⟨0, by omega, by simp, rfl⟩
    | lost => exact ⟨0, by omega, by simp, rfl⟩

/-- While the bytes are acknowledged, a reading stores the first ones, all of them when it
succeeds. -/
theorem i2cDriverRead_bytes (reg : Nat) {len : Nat} (hlen : len ≠ 0) {s : I2cBus}
    (hack : s.ack = true) : ∃ k ≤ len, ((i2cDriverRead w reg len s).1.1 = true ↔ k = len) ∧
      (i2cDriverRead w reg len s).1.2 = (List.range k).map fun i => s.chip.regs (reg + i) := by
  have hnone : ∃ k ≤ len, (false = true ↔ k = len) ∧
      ([] : List UInt8) = (List.range k).map fun i => s.chip.regs (reg + i) :=
    ⟨0, Nat.zero_le _, by simpa using hlen.symm, rfl⟩
  obtain ⟨hack', hregs, hptr⟩ := i2cSelect_chip w reg s
  simp only [i2cDriverRead, if_neg hlen]
  split
  next hok =>
    split
    · split
      · obtain ⟨k, hk, hall, hbytes⟩ := i2cRecv_bytes w len
          (s := (i2cWaitFlag w (i2cWaitFlag w (i2cSelect w reg s).2).2).2) (hack'.trans hack)
        simp only [i2cWaitFlag_chip, hregs, hptr hok] at hbytes
        split
        next hrecv => exact ⟨k, hk, by simpa [hrecv] using hall, hbytes⟩
        next hrecv => exact ⟨k, hk, by simpa [hrecv] using hall, hbytes⟩
      · exact hnone
    · exact hnone
  next => exact hnone

theorem i2cDriverRead_chip (reg len : Nat) (s : I2cBus) :
    (i2cDriverRead w reg len s).2.chip.regs = s.chip.regs := by
  have hregs := (i2cSelect_chip w reg s).2.1
  simp only [i2cDriverRead]
  split
  · rfl
  · split
    · split
      · split
        · split <;> exact (i2cRecv_regs w _ _ _).trans hregs
        · exact hregs
      · exact hregs
    · exact hregs

theorem i2cDriverRead_ack (reg len : Nat) (s : I2cBus) :
    (i2cDriverRead w reg len s).1.1 = true → (i2cDriverRead w reg len s).2.ack = true := by
  simp only [i2cDriverRead]
  split
  · simp
  · split
    · split
      · split
        · split <;> simp
        · simp
      · simp
    · simp

end Driver

@[simp] theorem RtcTime.length_bytes (t : RtcTime) : t.bytes.length = 7 := rfl

theorem RtcTime.bytes_receive (t : RtcTime) {bs : List UInt8} (h : bs.length ≤ 7) :
    (t.receive bs).bytes = bs ++ t.bytes.drop bs.length := by
  have hmap : (t.receive bs).bytes =
      (List.range 7).map fun i => bs.getD i (t.bytes.getD i 0) := rfl
  refine List.ext_getElem (by simp; omega) fun i hi _ => ?_
  rw [length_bytes] at hi
  simp only [hmap, List.getElem_map, List.getElem_range]
  by_cases hlt : i < bs.length
  · simp [hlt]
  · have hdrop : bs.length + (i - bs.length) = i := by omega
    have hlength : i < t.bytes.length := by simpa using hi
    simp [List.getElem_append, hlt, hdrop, List.getElem?_eq_getElem hlength]

namespace RtcSystem

variable {w : Nat → I2cWait} {s : RtcSystem}

theorem set_eq (s : RtcSystem) (request : SystemTime) : s.set w request =
    let (_, bus) := sd2505SetTime w (.ofRequest request) s.bus
    ((sd2505GetTime w (.ofRequest request) bus).1.2,
      { s with
        bus := (sd2505GetTime w (.ofRequest request) bus).2
        failed := !(sd2505GetTime w (.ofRequest request) bus).1.1 }) :=
  rfl

/-- Acknowledging is left switched off only by a reading that has failed. -/
def Sound (s : RtcSystem) : Prop :=
  s.failed = false → s.bus.ack = true

theorem getTime_sound (time : RtcTime) (bus : I2cBus) :
    (!(sd2505GetTime w time bus).1.1) = false → (sd2505GetTime w time bus).2.ack = true := by
  intro hok
  exact i2cDriverRead_ack w _ _ _ (by simpa [sd2505GetTime] using hok)

theorem getTime_bytes (time : RtcTime) {bus : I2cBus} (hack : bus.ack = true) :
    ∃ k ≤ 7, ((sd2505GetTime w time bus).1.1 = true ↔ k = 7) ∧
      (sd2505GetTime w time bus).1.2.bytes =
        bus.chip.time.bytes.take k ++ time.bytes.drop k := by
  obtain ⟨k, hk, hok, hbytes⟩ := i2cDriverRead_bytes w sd2505AddrSecond (show 7 ≠ 0 by simp) hack
  refine ⟨k, hk, hok, ?_⟩
  have hlength : (i2cDriverRead w sd2505AddrSecond 7 bus).1.2.length = k := by simp [hbytes]
  calc (sd2505GetTime w time bus).1.2.bytes
      = (time.receive (i2cDriverRead w sd2505AddrSecond 7 bus).1.2).bytes := rfl
    _ = _ := time.bytes_receive (hlength ▸ hk)
    _ = bus.chip.time.bytes.take k ++ time.bytes.drop k := by
        rw [hlength, hbytes, Sd2505.bytes_time, ← List.map_take, List.take_range, min_eq_left hk]
        simp [sd2505AddrSecond]

theorem step_sound (hs : s.Sound) (e : RtcEvent) (bus : I2cBus) (boot time : RtcTime) :
    ((rtcSystem w bus boot time).step s e).Sound := by
  cases e with
  | pass now => exact hs
  | sync => exact getTime_sound s.time s.bus
  | set request => exact getTime_sound (w := w) (.ofRequest request) _

theorem run_sound (bus : I2cBus) (boot time : RtcTime) (es : List RtcEvent) :
    ((rtcSystem w bus boot time).run es).Sound := by
  have hstep : ∀ s : RtcSystem, ∀ e, s.Sound → ((rtcSystem w bus boot time).step s e).Sound :=
    fun s e hs => step_sound hs e bus boot time
  exact (rtcSystem w bus boot time).invariant_runFrom_of_step hstep es (getTime_sound boot bus)

theorem getTime_regs (time : RtcTime) (bus : I2cBus) :
    (sd2505GetTime w time bus).2.chip.regs = bus.chip.regs :=
  i2cDriverRead_chip w sd2505AddrSecond 7 bus

theorem getTime_time (time : RtcTime) (bus : I2cBus) :
    (sd2505GetTime w time bus).2.chip.time = bus.chip.time := by
  simp only [Sd2505.time, getTime_regs]

/-- What no step touches. -/
def OtherRegs (regs : Nat → UInt8) (s : RtcSystem) : Prop :=
  ∀ i, 7 ≤ i → i ≠ sd2505AddrCtr1 → i ≠ sd2505AddrCtr2 → s.bus.chip.regs i = regs i

theorem step_otherRegs {regs : Nat → UInt8} (hs : s.OtherRegs regs) (e : RtcEvent) (bus : I2cBus)
    (boot time : RtcTime) : ((rtcSystem w bus boot time).step s e).OtherRegs regs := by
  intro i hi h1 h2
  cases e with
  | pass now =>
    have hlt : ¬ i < 7 := by omega
    simpa [rtcSystem, Sd2505.pass, hlt] using hs i hi h1 h2
  | sync => exact (congrFun (getTime_regs (w := w) s.time s.bus) i).trans (hs i hi h1 h2)
  | set request =>
    have hset := (sd2505SetTime_chip w (.ofRequest request) s.bus).2.1 i hi h1 h2
    have hget := getTime_regs (w := w) (.ofRequest request)
      (sd2505SetTime w (.ofRequest request) s.bus).2
    show (s.set w request).2.bus.chip.regs i = regs i
    rw [set_eq, congrFun hget i, hset, hs i hi h1 h2]

/-- What a reading by `time_sync_task` publishes. -/
theorem sync_torn (hs : s.Sound) (hread : s.failed = false) :
    ∃ k ≤ 7, ((s.sync w).failed = false ↔ k = 7) ∧
      (s.sync w).time.bytes = s.bus.chip.time.bytes.take k ++ s.time.bytes.drop k ∧
      (s.sync w).timeSync = .ofRtc (s.sync w).time.fields := by
  obtain ⟨k, hk, hok, hbytes⟩ := getTime_bytes (w := w) s.time (hs hread)
  exact ⟨k, hk, by simpa [sync] using hok, hbytes, rfl⟩

theorem set_torn (hs : s.Sound) (request : SystemTime) :
    ∃ k ≤ 7, ((sd2505WriteOn w s.bus).1 = true →
        (sd2505SetTime w (.ofRequest request) s.bus).1 = true → k = 7) ∧
      (s.set w request).2.bus.chip.time.bytes =
        (RtcTime.ofRequest request).bytes.take k ++ s.bus.chip.time.bytes.drop k ∧
      (s.failed = false → ∃ j ≤ 7, ((s.set w request).2.failed = false ↔ j = 7) ∧
        (s.set w request).1.bytes = (s.set w request).2.bus.chip.time.bytes.take j ++
          (RtcTime.ofRequest request).bytes.drop j) := by
  obtain ⟨hack, -, k, hk, hall, hbytes⟩ := sd2505SetTime_chip w (.ofRequest request) s.bus
  rw [set_eq]
  simp only [getTime_time, Bool.not_eq_false']
  refine ⟨k, hk, fun hon hset => hall hset hon, hbytes, fun hread => ?_⟩
  exact getTime_bytes (.ofRequest request) (hack.trans (hs hread))

end RtcSystem

/-- However the transfers break off: the chip's time after `kt_SetSysTime` is the first bytes of the
request before the rest of the old time, and no other register changes but the locks. When the last
reading has not failed, what `time_sync_task` publishes next is the first bytes of the chip's time
before the rest of what it read last, and an answer is the first bytes of the chip's new time before
the rest of the request. A reading that fails may leave the acknowledgement off for the next one. -/
theorem rtcSystem_torn (w : Nat → I2cWait) (bus : I2cBus) (boot time : RtcTime)
    (es : List RtcEvent) :
    let s := (rtcSystem w bus boot time).run es
    (s.failed = false → ∃ k ≤ 7, ((s.sync w).failed = false ↔ k = 7) ∧
      (s.sync w).time.bytes = s.bus.chip.time.bytes.take k ++ s.time.bytes.drop k ∧
      (s.sync w).timeSync = .ofRtc (s.sync w).time.fields) ∧
    (∀ request, ∃ k ≤ 7, ((sd2505WriteOn w s.bus).1 = true →
        (sd2505SetTime w (.ofRequest request) s.bus).1 = true → k = 7) ∧
      (s.set w request).2.bus.chip.time.bytes =
        (RtcTime.ofRequest request).bytes.take k ++ s.bus.chip.time.bytes.drop k ∧
      (s.failed = false → ∃ j ≤ 7, ((s.set w request).2.failed = false ↔ j = 7) ∧
        (s.set w request).1.bytes = (s.set w request).2.bus.chip.time.bytes.take j ++
          (RtcTime.ofRequest request).bytes.drop j)) ∧
    ∀ i, 7 ≤ i → i ≠ sd2505AddrCtr1 → i ≠ sd2505AddrCtr2 →
      s.bus.chip.regs i = bus.chip.regs i := by
  have hs := RtcSystem.run_sound (w := w) bus boot time es
  have hstep : ∀ s : RtcSystem, ∀ e, s.OtherRegs bus.chip.regs →
      ((rtcSystem w bus boot time).step s e).OtherRegs bus.chip.regs :=
    fun s e hs => RtcSystem.step_otherRegs hs e bus boot time
  have hother : ((rtcSystem w bus boot time).run es).OtherRegs bus.chip.regs :=
    (rtcSystem w bus boot time).invariant_runFrom_of_step hstep es fun i _ _ _ =>
      congrFun (RtcSystem.getTime_regs (w := w) boot bus) i
  exact ⟨RtcSystem.sync_torn hs, RtcSystem.set_torn hs, hother⟩

end Lsc100
