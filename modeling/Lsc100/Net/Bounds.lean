import Lsc100.Alarm.Query
import Lsc100.Net.SampleRequest

/-! Which bytes are looked at: by `msg_proc_task` when it checks a message, and by the
handler the message is given to. -/

namespace Lsc100

open Bytes

def msgLen (item : Nat → UInt8) : Nat := hConvert fun k => item (2 + k)

/-- The positions read to locate and verify the checksum: the length field, the bytes
summed up, the header, and if that is right the checksum. -/
def checkReads (item : Nat → UInt8) : List Int :=
  let len := msgLen item
  [2, 3] ++ (List.range ((len + 2 ^ 16 - msgDataFramCrcSize) % 2 ^ 16)).map (↑) ++ [0, 1] ++
    if msgDataFramHdr = hConvert item then
      [(len : Int) - msgDataFramCrcSize, (len : Int) - msgDataFramCrcSize + 1]
    else []

/-- What a handler takes from the payload of the message it is given. -/
inductive HandlerArg
  | nothing
  | threshold (u : UInt32)
  | time (stTime : SystemTime)
  | window (stStrTime stEndTime : SystemTime)
  | sampleDataIn (req : SampleDataInRes)
  deriving DecidableEq

/-- `DW_HConvert` of the four bytes at `b`. -/
def dwHConvert (b : Nat → UInt8) : UInt32 := .ofNat (beNat 4 b)

def Handler.arg (handler : Handler) (msg : Nat → UInt8) : HandlerArg :=
  match handler with
  | .ktSetFrontVmax | .ktSetFrontVmin | .ktSetRearVmax | .ktSetRearVmin =>
    .threshold (dwHConvert fun k => msg (msgFramHdrSize + k))
  | .ktSetSysTime | .ktAlarmData => .time (.ofBytes fun k => msg (msgFramHdrSize + k))
  | .ktSampleData =>
    .window (.ofBytes fun k => msg (msgFramHdrSize + k)) (.ofBytes fun k => msg (11 + k))
  | .ktSampleDataIn => .sampleDataIn (sampleDataInRes msg)
  | .ktConfigInfo | .ktAlarmInfo | .ktSampleInfo | .ktClearData | .ktClearConfig => .nothing

/-- The number of payload bytes that matter to the handler. -/
def Handler.argSize : Handler → Nat
  | .ktSetFrontVmax | .ktSetFrontVmin | .ktSetRearVmax | .ktSetRearVmin => 4
  | .ktSetSysTime | .ktAlarmData => 6
  | .ktSampleData | .ktSampleDataIn => 12
  | .ktConfigInfo | .ktAlarmInfo | .ktSampleInfo | .ktClearData | .ktClearConfig => 0

/-- The byte at `p` matters: changing it alone can change what the handler takes. -/
def Handler.Reads (handler : Handler) (p : Nat) : Prop :=
  ∃ msg msg' : Nat → UInt8, (∀ q, q ≠ p → msg q = msg' q) ∧ handler.arg msg ≠ handler.arg msg'

theorem hConvert_lt (b : Nat → UInt8) : hConvert b < 2 ^ 16 := by
  rw [hConvert, beNat]
  exact leNat_lt 2 _

theorem hConvert_msgMemory (item : Nat → UInt8) (around : Int → UInt8) {a : Nat} (ha : a < 99) :
    hConvert (fun k => msgMemory item around (a + k)) = hConvert fun k => item (a + k) := by
  refine hConvert_congr fun k hk => ?_
  have hlt : (a : Int) + k < maxQueueDataSize := by
    have hsize : maxQueueDataSize = 100 := rfl
    omega
  rw [msgMemory, if_pos ⟨by omega, hlt⟩]
  rfl

/-- The memory that is not read has no part in the answer. -/
theorem msgProc_congr {item : Nat → UInt8} {around around' : Int → UInt8}
    (h : ∀ p ∈ checkReads item, msgMemory item around p = msgMemory item around' p) :
    msgProc item around = msgProc item around' := by
  have hlen (a : Int → UInt8) : hConvert (fun k => msgMemory item a (2 + k)) = msgLen item :=
    hConvert_msgMemory item a (by decide)
  have hhdr (a : Int → UInt8) : hConvert (fun k => msgMemory item a k) = hConvert item := by
    have hzero := hConvert_msgMemory item a (a := 0) (by decide)
    simpa only [Nat.zero_add, Nat.cast_zero, zero_add] using hzero
  have hsum : checkSum8 (fun k => msgMemory item around k)
      ((msgLen item + 2 ^ 16 - msgDataFramCrcSize) % 2 ^ 16) =
      checkSum8 (fun k => msgMemory item around' k)
      ((msgLen item + 2 ^ 16 - msgDataFramCrcSize) % 2 ^ 16) := by
    refine checkSum8_congr fun i hi => h i ?_
    simp only [checkReads, List.mem_append]
    exact .inl (.inl (.inr (List.mem_map_of_mem (List.mem_range.mpr hi))))
  simp only [msgProc, hlen, hhdr, hsum]
  by_cases hheader : msgDataFramHdr = hConvert item
  · have hcrc : hConvert (fun k => msgMemory item around (msgLen item - msgDataFramCrcSize + k)) =
        hConvert (fun k => msgMemory item around' (msgLen item - msgDataFramCrcSize + k)) := by
      refine hConvert_congr fun k hk => h _ ?_
      simp only [checkReads, List.mem_append, if_pos hheader]
      interval_cases k <;> simp
    simp only [hcrc]
    rfl
  · simp only [hheader, false_and, if_false]

theorem mem_checkReads {item : Nat → UInt8} {p : Int} :
    p ∈ checkReads item ↔ (0 ≤ p ∧ p < 4) ∨
      (0 ≤ p ∧ p < ((msgLen item + 2 ^ 16 - msgDataFramCrcSize) % 2 ^ 16 : Nat)) ∨
      msgDataFramHdr = hConvert item ∧ (p = (msgLen item : Int) - msgDataFramCrcSize ∨
        p = (msgLen item : Int) - msgDataFramCrcSize + 1) := by
  have hrange (n : Nat) : p ∈ (List.range n).map (fun i : Nat => (i : Int)) ↔ 0 ≤ p ∧ p < n := by
    simp only [List.mem_map, List.mem_range]
    constructor
    · rintro ⟨i, hi, rfl⟩
      omega
    · rintro ⟨hpos, hlt⟩
      exact ⟨p.toNat, by omega, by omega⟩
  have hcrc (a : Int) : (p ∈ if msgDataFramHdr = hConvert item then [a, a + 1] else []) ↔
      msgDataFramHdr = hConvert item ∧ (p = a ∨ p = a + 1) := by
    split <;> simp [*]
  simp only [checkReads, List.mem_append, hrange, hcrc, List.mem_cons, List.not_mem_nil, or_false]
  omega

/-- A message is checked within its array if its length is 2 to 100; without the right
header the checksum itself is not read, and the length may be up to 102. -/
theorem checkReads_inside_iff (item : Nat → UInt8) :
    (∀ p ∈ checkReads item, 0 ≤ p ∧ p < maxQueueDataSize) ↔
      2 ≤ msgLen item ∧ (msgLen item ≤ maxQueueDataSize ∨
        msgDataFramHdr ≠ hConvert item ∧ msgLen item ≤ maxQueueDataSize + msgDataFramCrcSize) := by
  have hlt : msgLen item < 2 ^ 16 := hConvert_lt _
  have hsize : maxQueueDataSize = 100 := rfl
  have hcrc : msgDataFramCrcSize = 2 := rfl
  simp only [mem_checkReads, hsize, hcrc]
  constructor
  · intro h
    have hsum := h (((msgLen item + 2 ^ 16 - 2) % 2 ^ 16 : Nat) - 1)
    have hlast := h ((msgLen item : Int) - 2 + 1)
    by_cases hheader : msgDataFramHdr = hConvert item
    · have hin := hlast (.inr (.inr ⟨hheader, .inr rfl⟩))
      omega
    · have hin : msgLen item < 4 ∨ msgLen item ≤ 102 := by omega
      refine ⟨by omega, .inr ⟨hheader, by omega⟩⟩
  · rintro ⟨hmin, hmax⟩ p (hhead | hsum | ⟨hheader, hcheck⟩)
    · omega
    · omega
    · have hle : msgLen item ≤ 100 := hmax.resolve_right fun hother => hother.1 hheader
      omega

/-- A message of four bytes: the checksum is taken over 65534 bytes. -/
theorem checkReads_outside :
    ¬ ∀ p ∈ checkReads (memoryOf [0xAA, 0xAA, 0x00, 0x00]), 0 ≤ p ∧ p < maxQueueDataSize := by
  intro h
  have hread : (65533 : Int) ∈ checkReads (memoryOf [0xAA, 0xAA, 0x00, 0x00]) :=
    mem_checkReads.mpr (.inr (.inl ⟨by decide, by decide⟩))
  exact absurd (h _ hread).2 (by decide)

namespace Handler

theorem dwHConvert_congr {b c : Nat → UInt8} (h : ∀ i < 4, b i = c i) :
    dwHConvert b = dwHConvert c :=
  congrArg UInt32.ofNat (leNat_congr fun i _ => h (4 - 1 - i) (by omega))

theorem sampleDataInRes_congr {item item' : Nat → UInt8}
    (h : ∀ k < 12, item (msgFramHdrSize + k) = item' (msgFramHdrSize + k)) :
    sampleDataInRes item = sampleDataInRes item' := by
  have hword (a : Nat) (ha : a ≤ 8) :
      leNat 4 (fun k => item (5 + a + k)) = leNat 4 fun k => item' (5 + a + k) := by
    refine leNat_congr fun k hk => ?_
    have hbyte := h (a + k) (by omega)
    rwa [← Nat.add_assoc] at hbyte
  rw [sampleDataInRes, sampleDataInRes]
  congr 2
  · exact hword 0 (by decide)
  · exact hword 4 (by decide)
  · exact hword 8 (by decide)

/-- The handler does not depend on the rest of the memory it is given. -/
theorem arg_congr (handler : Handler) {msg msg' : Nat → UInt8}
    (h : ∀ k < handler.argSize, msg (msgFramHdrSize + k) = msg' (msgFramHdrSize + k)) :
    handler.arg msg = handler.arg msg' := by
  cases handler with
  | ktSetFrontVmax | ktSetFrontVmin | ktSetRearVmax | ktSetRearVmin =>
    exact congrArg HandlerArg.threshold (dwHConvert_congr h)
  | ktSetSysTime | ktAlarmData => exact congrArg HandlerArg.time (SystemTime.ofBytes_congr h)
  | ktSampleData =>
    have hend : ∀ k < 6, msg (11 + k) = msg' (11 + k) := fun k hk => by
      have hbyte := h (6 + k) (Nat.add_lt_add_left hk 6)
      rwa [← Nat.add_assoc] at hbyte
    exact congrArg₂ HandlerArg.window
      (SystemTime.ofBytes_congr fun k hk => h k (Nat.lt_trans hk (by decide)))
      (SystemTime.ofBytes_congr hend)
  | ktSampleDataIn => exact congrArg HandlerArg.sampleDataIn (sampleDataInRes_congr h)
  | ktConfigInfo | ktAlarmInfo | ktSampleInfo | ktClearData | ktClearConfig => rfl

theorem reads_iff (handler : Handler) (p : Nat) :
    handler.Reads p ↔ msgFramHdrSize ≤ p ∧ p < msgFramHdrSize + handler.argSize := by
  constructor
  · rintro ⟨msg, msg', heq, hne⟩
    by_contra hout
    refine hne (handler.arg_congr fun k hk => heq _ ?_)
    omega
  · rintro ⟨hstart, hend⟩
    refine ⟨fun _ => 0, Function.update (fun _ => 0) p 1,
      fun q hq => by rw [Function.update_of_ne hq], ?_⟩
    have hhdr : msgFramHdrSize = 5 := rfl
    rw [hhdr] at hstart hend
    cases handler <;> simp only [argSize] at hend <;> first | omega | (interval_cases p <;> decide)

end Handler

/-- The payload a handler acts on is covered by the checksum exactly if there is none or
the length field leaves room for it. -/
theorem handler_reads_covered_iff (item : Nat → UInt8) (around : Int → UInt8)
    (handler : Handler) : msgProc item around = some handler →
      ((∀ p, handler.Reads p → (p : Int) < (msgLen item : Int) - msgDataFramCrcSize) ↔
        handler.argSize = 0 ∨
          msgFramHdrSize + handler.argSize + msgDataFramCrcSize ≤ msgLen item) := by
  intro _
  simp only [handler.reads_iff]
  constructor
  · intro h
    rcases Nat.eq_zero_or_pos handler.argSize with hzero | hpos
    · exact .inl hzero
    · have hlast := h (msgFramHdrSize + handler.argSize - 1) ⟨by omega, by omega⟩
      omega
  · rintro (hzero | hroom) p ⟨hstart, hend⟩ <;> omega

theorem handler_reads_covered_sampleDataIn :
    msgLen (memoryOf (SampleDataInRes.fram ⟨20, 0, 1774601400⟩)) = 32 ∧
      ¬ Handler.ktSampleDataIn.Reads 30 := by
  have hcovered := (handler_reads_covered_iff
    (memoryOf (SampleDataInRes.fram ⟨20, 0, 1774601400⟩)) (fun _ => 0) .ktSampleDataIn
    (SampleDataInRes.msgProc_fram (fun _ _ => rfl) _)).mpr (.inr (by decide))
  exact ⟨by decide, fun hreads => absurd (hcovered 30 hreads) (by decide)⟩

/-- A request of seven bytes that sets a threshold: its own checksum is taken for the value. -/
theorem handler_reads_uncovered :
    let item := memoryOf [0xAA, 0xAA, 0x00, 0x07, 0x11, 0x01, 0x6C]
    (∀ around, msgProc item around = some .ktSetFrontVmax) ∧ msgLen item = 7 ∧
      Handler.arg .ktSetFrontVmax item = .threshold 0x016C0000 ∧
      Handler.Reads .ktSetFrontVmax 8 := by
  refine ⟨fun around => ?_, by decide, by decide, ?_⟩
  · have hinside : ∀ p ∈ checkReads (memoryOf [0xAA, 0xAA, 0x00, 0x07, 0x11, 0x01, 0x6C]),
        0 ≤ p ∧ p < maxQueueDataSize := by decide
    have hsame : msgProc (memoryOf [0xAA, 0xAA, 0x00, 0x07, 0x11, 0x01, 0x6C]) around =
        msgProc (memoryOf [0xAA, 0xAA, 0x00, 0x07, 0x11, 0x01, 0x6C]) fun _ => 0 :=
      msgProc_congr fun p hp => by simp only [msgMemory, if_pos (hinside p hp)]
    exact hsame.trans (by decide +kernel)
  exact ⟨fun _ => 0, Function.update (fun _ => 0) 8 1,
    fun q hq => by rw [Function.update_of_ne hq], by decide⟩

end Lsc100
