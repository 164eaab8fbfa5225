/-
The sequence check of `tcp_verify_segment` beside the test of RFC 793. The plain
comparisons take the right edge of the window for a part of it, drop what
reaches into the window from the left, and let nothing in once the window
reaches 2^32.
-/
import LevelIp.TcpInput
import LevelIp.Lib.Serial

namespace LevelIp

open Serial

/-- The acceptability test of RFC 793, modulo 2^32. -/
def rfcAcceptable (nxt wnd seq dlen : U32) : Bool :=
  if dlen = 0 then seq = nxt || inWindow nxt wnd seq
  else inWindow nxt wnd seq || inWindow nxt wnd (seq + dlen - 1)

/-- The segment begins before the window and ends in it. -/
def ReachesIn (nxt wnd seq dlen : U32) : Prop :=
  dlen ≠ 0 ∧ ¬ inWindow nxt wnd seq ∧ inWindow nxt wnd (seq + dlen - 1)

/-- The segment has a byte at either end, or, if it is empty, its number, in the window. -/
def Touches (nxt wnd seq dlen : U32) : Prop :=
  inWindow nxt wnd seq ∨ dlen = 0 ∧ seq = nxt ∨ dlen ≠ 0 ∧ inWindow nxt wnd (seq + dlen - 1)

/-- Where the two tests agree: before a window that ends below 2^32, off its
right edge and not reaching in; or outside a window that does not. -/
def PlainlyChecked (nxt wnd seq dlen : U32) : Prop :=
  if nxt.toNat + wnd.toNat < 2 ^ 32 then ¬(wnd ≠ 0 ∧ seq = nxt + wnd) ∧ ¬ ReachesIn nxt wnd seq dlen
  else ¬ Touches nxt wnd seq dlen

theorem rfcAcceptable_iff {nxt wnd seq dlen : U32} : rfcAcceptable nxt wnd seq dlen = true ↔ Touches nxt wnd seq dlen := by
  unfold rfcAcceptable Touches
  split
  next hd =>
    rw [hd, Bool.or_eq_true, decide_eq_true_eq]
    tauto
  next hd =>
    rw [Bool.or_eq_true]
    tauto

/-- What the check lets in. -/
theorem tcpVerifySegment_iff {s : TcpSock} {th : Tcphdr} {skb : Skb} :
    tcpVerifySegment s th skb = true ↔
      ¬(skb.dlen ≠ 0 ∧ s.tcb.rcvWnd = 0) ∧ s.tcb.rcvNxt ≤ th.seq ∧ th.seq ≤ s.tcb.rcvNxt + s.tcb.rcvWnd := by
  have hpos : skb.dlen > 0 ↔ skb.dlen ≠ 0 := by bv_omega
  simp only [tcpVerifySegment, hpos, Bool.and_eq_true, Bool.not_eq_true', Bool.and_eq_false_iff, Bool.or_eq_false_iff,
    decide_eq_false_iff_not, BitVec.not_lt, gt_iff_lt, not_and_or]

/-- No number passes a check whose upper bound has wrapped. -/
theorem tcpVerifySegment_wrapped {s : TcpSock} {th : Tcphdr} {skb : Skb} (hw : ¬ s.tcb.rcvNxt.toNat + s.tcb.rcvWnd.toNat < 2 ^ 32) :
    tcpVerifySegment s th skb = false := by
  by_contra hv
  obtain ⟨-, h1, h2⟩ := tcpVerifySegment_iff.mp (Bool.eq_true_of_not_eq_false hv)
  bv_omega

theorem skb_dlen_lt (skb : Skb) : skb.dlen.toNat < 65536 := by
  have hl := skb.payload.len_toNat
  have hs := skb.payload.short
  rw [show skb.dlen = skb.payload.len from rfl, hl]
  exact hs

/-- **Segment acceptability.** `tcp_verify_segment` decides as RFC 793 does
exactly where the segment is plainly checked. -/
theorem tcpVerifySegment_rfc_iff (s : TcpSock) (th : Tcphdr) (skb : Skb) (hw : s.tcb.rcvWnd.toNat ≤ 2 ^ 16) :
    tcpVerifySegment s th skb = rfcAcceptable s.tcb.rcvNxt s.tcb.rcvWnd th.seq skb.dlen ↔
      PlainlyChecked s.tcb.rcvNxt s.tcb.rcvWnd th.seq skb.dlen := by
  have hd := skb_dlen_lt skb
  unfold PlainlyChecked
  split
  next hroom =>
    rw [Bool.eq_iff_iff, tcpVerifySegment_iff, rfcAcceptable_iff]
    generalize s.tcb.rcvNxt = nxt, s.tcb.rcvWnd = wnd, th.seq = seq, skb.dlen = dlen at hw hd hroom ⊢
    have hle : nxt ≤ seq ∧ seq ≤ nxt + wnd ↔ inWindow nxt wnd seq = true ∨ seq = nxt + wnd := by
      rw [inWindow_interval hroom]
      bv_omega
    -- the right edge, and what begins there, is outside
    have hedge : seq = nxt + wnd → ¬ inWindow nxt wnd seq = true := by
      rw [inWindow_iff]
      bv_omega
    have hlast : seq = nxt + wnd → dlen ≠ 0 → ¬ inWindow nxt wnd (seq + dlen - 1) = true := by
      rw [inWindow_iff]
      bv_omega
    have hempty : wnd = 0 → ∀ x, ¬ inWindow nxt wnd x = true := by
      rintro rfl x
      simp [inWindow_iff]
    have hzero : wnd = 0 → (seq = nxt + wnd ↔ seq = nxt) := by
      rintro rfl
      rw [show nxt + 0 = nxt from BitVec.add_zero nxt]
    have hnxt : wnd ≠ 0 → seq = nxt → inWindow nxt wnd seq = true := by
      rw [inWindow_iff]
      bv_omega
    rw [hle]
    unfold Touches ReachesIn
    have hfirst := fun h => hempty h seq
    have hend := fun h => hempty h (seq + dlen - 1)
    clear hw hd hroom hle hempty
    simp only [ne_eq] at *
    generalize (inWindow nxt wnd seq = true) = first, (inWindow nxt wnd (seq + dlen - 1) = true) = last, (wnd = 0) = shut,
      (dlen = 0) = empty, (seq = nxt + wnd) = edge, (seq = nxt) = next at *
    by_cases h0 : shut <;> by_cases he : empty <;> by_cases hed : edge <;> by_cases hf : first <;> simp_all
  next hroom =>
    rw [tcpVerifySegment_wrapped hroom, ← rfcAcceptable_iff]
    cases rfcAcceptable s.tcb.rcvNxt s.tcb.rcvWnd th.seq skb.dlen <;> simp

/-- A segment one past the window is let in, one that reaches into it from the
left is not, and where the window passes 2^32 not even the next number is. -/
theorem tcpVerifySegment_edges :
    let s : TcpSock := { tcb := { rcvNxt := 1000, rcvWnd := 100 } }
    let wrapped : TcpSock := { tcb := { rcvNxt := 0xFFFFFFF0, rcvWnd := 100 } }
    let skb : Skb := tcpInitSegment { seq := 990, ackSeq := 0, win := 0 } ⟨List.replicate 20 0, by decide⟩ false
    tcpVerifySegment s { seq := 1100, ackSeq := 0, win := 0 } (tcpAllocSkb 0 Payload.nil) ≠ rfcAcceptable 1000 100 1100 0 ∧
      tcpVerifySegment s { seq := 990, ackSeq := 0, win := 0 } skb ≠ rfcAcceptable 1000 100 990 20 ∧
      tcpVerifySegment wrapped { seq := 0xFFFFFFF0, ackSeq := 0, win := 0 } (tcpAllocSkb 0 Payload.nil) ≠
        rfcAcceptable 0xFFFFFFF0 100 0xFFFFFFF0 0 := by
  decide +kernel

/-- The theorem at the next number of a plain window. -/
theorem tcpVerifySegment_rfc_next :
    let s : TcpSock := { tcb := { rcvNxt := 1000, rcvWnd := 100 } }
    tcpVerifySegment s { seq := 1000, ackSeq := 0, win := 0 } (tcpAllocSkb 0 Payload.nil) =
        rfcAcceptable 1000 100 1000 (tcpAllocSkb 0 Payload.nil).dlen ↔
      PlainlyChecked 1000 100 1000 (tcpAllocSkb 0 Payload.nil).dlen :=
  tcpVerifySegment_rfc_iff { tcb := { rcvNxt := 1000, rcvWnd := 100 } } { seq := 1000, ackSeq := 0, win := 0 }
    (tcpAllocSkb 0 Payload.nil) (by decide)

end LevelIp
