import Lsc100.Net.Server

/-! `socket_recv` and `socket_send`: what `recv` and `send` report passes through an `int8_t`,
and `tcp_server_task` takes its sign for the end of the connection. -/

namespace Lsc100

inductive ProtoType
  | tcp
  | udp
  deriving DecidableEq

inductive SockStat
  | closed
  | connecting
  | connected
  | listening
  deriving DecidableEq

structure SocketHandle where
  sockFd : Int
  proto : ProtoType
  stat : SockStat

def toInt8 (x : Int) : Int := Int.bmod x 256

/-- `recvLen` is what `recv` or `recvfrom` reports. -/
def socketRecv (recvLen : Int) (handle : Option SocketHandle) (bufNull : Bool) (bufLen : Nat) :
    Option SocketHandle × Int :=
  match handle with
  | none => (none, -1)
  | some h =>
    if bufNull ∨ bufLen = 0 ∨ h.sockFd < 0 then (some h, -1)
    else if h.proto = .tcp then
      if recvLen ≤ 0 then (some { h with stat := .closed }, -2) else (some h, toInt8 recvLen)
    else
      if recvLen ≤ 0 then (some h, -3) else (some h, toInt8 recvLen)

/-- `sendLen` is what `send` or `sendto` reports. -/
def socketSend (sendLen : Int) (handle : Option SocketHandle) (bufNull : Bool) (bufLen : Nat)
    (peerAddrNull : Bool) : Int :=
  match handle with
  | none => -1
  | some h =>
    if bufNull ∨ bufLen = 0 ∨ h.sockFd < 0 then -1
    else if h.proto = .tcp then
      if h.stat ≠ .connected then -2 else if 0 < sendLen then toInt8 sendLen else -4
    else
      if peerAddrNull then -3 else if 0 < sendLen then toInt8 sendLen else -4

/-- `socket_send` comes to its call of `send` or `sendto`. -/
def SocketHandle.CanSend (h : SocketHandle) (peerAddrNull : Bool) : Prop :=
  if h.proto = .tcp then h.stat = .connected else peerAddrNull = false

/-- A connection as `socket_tcp_accept` leaves it. -/
def accepted (sockFd : Nat) : SocketHandle := ⟨sockFd, .tcp, .connected⟩

theorem toInt8_eq_iff {c : Int} (h : 0 < c) : toInt8 c = c ↔ c ≤ 127 := by
  have hlt : toInt8 c < 128 := Int.bmod_lt (m := 256) (by decide)
  constructor
  · intro heq
    omega
  · intro hle
    exact Int.bmod_eq_of_le_mul_two (by omega) (by omega)

theorem toInt8_nonpos_iff {c : Int} (h : 0 < c) (hle : c ≤ 128) : toInt8 c ≤ 0 ↔ c = 128 := by
  by_cases hc : c ≤ 127
  · rw [(toInt8_eq_iff h).mpr hc]
    omega
  · obtain rfl : c = 128 := by omega
    decide

theorem socketRecv_of_pos {c : Int} (hc : 0 < c) {h : SocketHandle} (hfd : 0 ≤ h.sockFd)
    {bufLen : Nat} (hle : c ≤ bufLen) : (socketRecv c (some h) false bufLen).2 = toInt8 c := by
  have hargs : ¬ ((false : Bool) ∨ bufLen = 0 ∨ h.sockFd < 0) := by
    simp only [Bool.false_eq_true, false_or]
    omega
  rw [socketRecv, if_neg hargs, if_neg (Int.not_le.mpr hc), if_neg (Int.not_le.mpr hc)]
  split <;> rfl

theorem socketSend_of_pos {c : Int} (hc : 0 < c) {h : SocketHandle} (hfd : 0 ≤ h.sockFd)
    {bufLen : Nat} (hle : c ≤ bufLen) {peerAddrNull : Bool} (hsend : h.CanSend peerAddrNull) :
    socketSend c (some h) false bufLen peerAddrNull = toInt8 c := by
  have hargs : ¬ ((false : Bool) ∨ bufLen = 0 ∨ h.sockFd < 0) := by
    simp only [Bool.false_eq_true, false_or]
    omega
  rw [SocketHandle.CanSend] at hsend
  rw [socketSend, if_neg hargs, if_pos hc]
  by_cases htcp : h.proto = .tcp
  · rw [if_pos htcp] at hsend ⊢
    rw [if_neg (not_not_intro hsend)]
  · rw [if_neg htcp] at hsend ⊢
    rw [hsend, if_neg Bool.false_ne_true]

/-- The loop of `tcp_server_task` goes on with a connection while `socket_recv` returns
something positive. -/
theorem recv_connected_iff (s : TcpServer) (bytes : List UInt8) (sockFd : Nat) :
    (s.recv bytes).connected = true ↔ s.connected = true ∧
      0 < (socketRecv bytes.length (some (accepted sockFd)) false tcpRecvBufLen).2 := by
  have hargs : ¬ ((false : Bool) ∨ tcpRecvBufLen = 0 ∨ (accepted sockFd).sockFd < 0) := by
    simp [tcpRecvBufLen, accepted]
  have htcp : (accepted sockFd).proto = .tcp := rfl
  have hret : socketRecvRet bytes.length = toInt8 bytes.length := rfl
  rw [socketRecv, if_neg hargs, if_pos htcp, TcpServer.recv, hret]
  by_cases hconn : s.connected = true
  · rw [if_pos hconn]
    by_cases h0 : (bytes.length : Int) ≤ 0
    · have hlen : (bytes.length : Int) = 0 := by omega
      rw [if_pos h0, hlen, if_pos (by decide)]
      simp
    · rw [if_neg h0]
      by_cases hpos : toInt8 bytes.length ≤ 0
      · rw [if_pos hpos]
        simp [Int.not_lt.mpr hpos]
      · rw [if_neg hpos]
        split <;> simp [hconn, Int.not_le.mp hpos]
  · rw [if_neg hconn]
    simp [hconn]

theorem recv_connected_iff_of_le {s : TcpServer} (hconn : s.connected = true) {bytes : List UInt8}
    (hle : bytes.length ≤ tcpRecvBufLen) : (s.recv bytes).connected = true ↔
      bytes.length ≠ 0 ∧ bytes.length ≠ 128 := by
  rw [tcpRecvBufLen] at hle
  rw [recv_connected_iff s bytes 0, and_iff_right hconn]
  by_cases h0 : bytes.length = 0
  · simp [h0, socketRecv, accepted, tcpRecvBufLen]
  · have hpos : 0 < (bytes.length : Int) := by omega
    have hle' : (bytes.length : Int) ≤ tcpRecvBufLen := by
      rw [tcpRecvBufLen]
      omega
    rw [socketRecv_of_pos hpos (Int.natCast_nonneg 0) hle', ← Int.not_le,
      toInt8_nonpos_iff hpos (by omega)]
    omega

/-- A connection is closed only when `recv` has delivered nothing. -/
def ClosesRight (es : List ServerEvent) : Prop :=
  ∀ before bytes, before ++ [.recv bytes] <+: es → (tcpServer.run before).connected = true →
    (tcpServer.run (before ++ [.recv bytes])).connected = false → bytes.length = 0

theorem closesRight_iff {es : List ServerEvent}
    (hes : ∀ bytes, .recv bytes ∈ es → bytes.length ≤ tcpRecvBufLen) :
    ClosesRight es ↔ ∀ before bytes, before ++ [.recv bytes] <+: es →
      (tcpServer.run before).connected = true → bytes.length ≠ 128 := by
  refine forall_congr' fun before => forall_congr' fun bytes => imp_congr_right fun hpre =>
    imp_congr_right fun hconn => ?_
  have hmem : .recv bytes ∈ es := hpre.subset (by simp)
  have hstep : (tcpServer.run (before ++ [.recv bytes])).connected = true ↔
      bytes.length ≠ 0 ∧ bytes.length ≠ 128 := by
    rw [tcpServer.run_concat]
    exact recv_connected_iff_of_le hconn (hes bytes hmem)
  rw [← Bool.not_eq_true, hstep]
  omega

/-- A count comes out of the `int8_t` as it went in up to 127; 128 bytes, a full buffer, end the
connection. -/
theorem socket_counts_iff {c : Int} {bufLen : Nat} {h : SocketHandle} {peerAddrNull : Bool}
    {es : List ServerEvent} (hfd : 0 ≤ h.sockFd) (hc : 0 < c) (hle : c ≤ bufLen)
    (hsend : h.CanSend peerAddrNull)
    (hes : ∀ bytes, .recv bytes ∈ es → bytes.length ≤ tcpRecvBufLen) :
    (0 < (socketRecv c (some h) false bufLen).2 ∧ (socketRecv c (some h) false bufLen).2 = c ↔
      c ≤ 127) ∧
    (0 < socketSend c (some h) false bufLen peerAddrNull ∧
      socketSend c (some h) false bufLen peerAddrNull = c ↔ c ≤ 127) ∧
    (ClosesRight es ↔ ∀ before bytes, before ++ [.recv bytes] <+: es →
      (tcpServer.run before).connected = true → bytes.length ≠ 128) := by
  have hcount : 0 < toInt8 c ∧ toInt8 c = c ↔ c ≤ 127 := by
    rw [toInt8_eq_iff hc |>.symm]
    constructor
    · exact And.right
    · intro heq
      exact ⟨heq.symm ▸ hc, heq⟩
  rw [socketRecv_of_pos hc hfd hle, socketSend_of_pos hc hfd hle hsend]
  exact ⟨hcount, hcount, closesRight_iff hes⟩

theorem not_closesRight {bytes : List UInt8} (h : bytes.length = 128) :
    ¬ ClosesRight [.recv bytes] := by
  have hes : ∀ bytes', .recv bytes' ∈ [ServerEvent.recv bytes] →
      bytes'.length ≤ tcpRecvBufLen := by
    intro bytes' hmem
    rw [List.mem_singleton, ServerEvent.recv.injEq] at hmem
    rw [hmem, h, tcpRecvBufLen]
  rw [closesRight_iff hes]
  intro hall
  exact hall [] bytes List.prefix_rfl rfl h

/-- A full buffer of 128 bytes counts as -128, and a frame of 832 bytes sent as 64. -/
theorem socket_counts_wrong :
    (socketRecv 128 (some (accepted 0)) false tcpRecvBufLen).2 = -128 ∧
      socketSend 832 (some (accepted 0)) false 832 true = 64 ∧
      ¬ ClosesRight [.recv (List.replicate 128 0)] :=
  ⟨by decide, by decide, not_closesRight List.length_replicate⟩

theorem socket_counts_iff_hundred :
    (0 < (socketRecv 100 (some (accepted 0)) false 128).2 ∧
      (socketRecv 100 (some (accepted 0)) false 128).2 = 100 ↔ (100 : Int) ≤ 127) ∧
    (0 < socketSend 100 (some (accepted 0)) false 128 true ∧
      socketSend 100 (some (accepted 0)) false 128 true = 100 ↔ (100 : Int) ≤ 127) := by
  have hfd : 0 ≤ (accepted 0).sockFd := Int.natCast_nonneg 0
  have hle : (100 : Int) ≤ (128 : Nat) := by decide
  have hsend : (accepted 0).CanSend true := rfl
  have hes : ∀ bytes, .recv bytes ∈ ([] : List ServerEvent) → bytes.length ≤ tcpRecvBufLen :=
    fun _ hmem => absurd hmem List.not_mem_nil
  obtain ⟨hrecv, hsend, -⟩ := socket_counts_iff hfd (by decide) hle hsend hes
  exact ⟨hrecv, hsend⟩

end Lsc100
