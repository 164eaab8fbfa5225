/-
What the handlers of `ndp.c` read of a message. The fixed part is read, or gone
past, without a look at the length, and the option loops go on for as many bytes
as `payload_len` says, which counts the extension headers before the message.

`DEBUG_NDP` adds reads of its own. The IPv6 header is in host order, and not
part of the message.
-/
import LevelIp.Advertisements
import LevelIp.ChainIcmpv6
import LevelIp.FieldReads

namespace LevelIp

open Access

/-! ## The handlers -/

/-- What a handler has taken from the message. -/
inductive NdpRead
  | nothing
  | ra (prefixes : List PrefixOpt)
  | ns (target : In6Addr)
  | na (target : In6Addr) (tlla : Option HwAddr) (flags : Option U8)
deriving DecidableEq

/-- The arguments of `ndp_dbg`. -/
def ndpDbg (debug : Bool) (args : Prog U8 Unit) : Prog U8 Unit := if debug then args else return ()

/-- `struct ndp_opt_prefix`. -/
def prefixOptAt (pfx : Int) : Prog U8 PrefixOpt := do
  let prefixLen ← Prog.cell (pfx + 2)
  let pre ← in6AddrAt (pfx + 16)
  let validLifetime ← ntohlAt (pfx + 4)
  let preferredLifetime ← ntohlAt (pfx + 8)
  return { prefixLen := prefixLen, validLifetime := validLifetime, preferredLifetime := preferredLifetime, pre := pre }

/-- The option loop of `ndp_ra_process`; none if it does not end in so many turns. -/
def raOptions : (turns : Nat) → (opt optlen : Int) → Prog U8 (Option (List PrefixOpt))
  | 0, _, optlen => return if optlen < 8 then some [] else none
  | turns + 1, opt, optlen =>
    if optlen < 8 then return some []
    else do
      let length ← Prog.cell (opt + 1)
      let skip : Nat := length.toNat * 8
      if skip = 0 ∨ optlen < skip then return some []
      else
        let type ← Prog.cell opt
        if type = NDP_OPT_PREFIX ∧ length = 4 then
          let pfx ← prefixOptAt opt
          let rest ← raOptions turns (opt + skip) (optlen - skip)
          return rest.map (pfx :: ·)
        else raOptions turns (opt + skip) (optlen - skip)

/-- `memcpy(tlla, opt + 2, 6)`, if the option is the one. -/
def takeTlla (opt : Int) (type length : U8) (found : Option HwAddr) : Prog U8 (Option HwAddr) :=
  if type = NDP_OPT_TLLA ∧ length = 1 then do
    let tlla ← hwAddrAt (opt + 2)
    return some tlla
  else return found

/-- The option loop of `ndp_na_process`. -/
def naOptions : (turns : Nat) → (opt optlen : Int) → (found : Option HwAddr) → Prog U8 (Option (Option HwAddr))
  | 0, _, optlen, found => return if optlen < 8 then some found else none
  | turns + 1, opt, optlen, found =>
    if optlen < 8 then return some found
    else do
      let type ← Prog.cell opt
      let length ← Prog.cell (opt + 1)
      let found ← takeTlla opt type length found
      let skip : Nat := length.toNat * 8
      if skip = 0 then return some found else naOptions turns (opt + skip) (optlen - skip) found

/-- `ndp_ra_process`. -/
def ndpRaProcessAt (debug : Bool) (ip6h : Ipv6hdr) (ra : Int) : Prog U8 (Option NdpRead) := do
  ndpDbg debug do
    let _curHopLimit ← Prog.cell (ra + 4)
    let _routerLifetime ← ntohsAt (ra + 6)
  let prefixes ← raOptions ip6h.payloadLen.toNat (ra + 16) (ip6h.payloadLen.toNat - 16)
  return prefixes.map .ra

/-- The flags, which count for an entry that is not INCOMPLETE. -/
def naFlags (h : Host6) (target : In6Addr) (na : Int) : Prog U8 (Option U8) :=
  match h.ndpLookup target with
  | none => return none
  | some entry =>
    if entry.state = .incomplete then return none
    else do
      let flags ← Prog.cell (na + 4)
      return some flags

/-- `ndp_na_process`. -/
def ndpNaProcessAt (debug : Bool) (h : Host6) (ip6h : Ipv6hdr) (na : Int) : Prog U8 (Option NdpRead) := do
  let target ← in6AddrAt (na + 8)
  ndpDbg debug do
    let _flags ← Prog.cell (na + 4)
  let found ← naOptions ip6h.payloadLen.toNat (na + 24) (ip6h.payloadLen.toNat - 24) none
  match found with
  | none => return none
  | some none => return some (.na target none none)
  | some (some tlla) =>
    let flags ← naFlags h target na
    return some (.na target (some tlla) flags)

/-- `ndp_ns_process`. -/
def ndpNsProcessAt (ns : Int) : Prog U8 (Option NdpRead) := do
  let target ← in6AddrAt (ns + 8)
  return some (.ns target)

/-- `ndp_incoming` for a message of that type. -/
def ndpIncomingAt (debug : Bool) (h : Host6) (ip6h : Ipv6hdr) (type : U8) (icmph : Int) : Prog U8 (Option NdpRead) :=
  if ip6h.hopLimit ≠ 255 then return some .nothing
  else if type = ICMPV6_ROUTER_ADVERT then ndpRaProcessAt debug ip6h icmph
  else if type = ICMPV6_NEIGHBOR_SOLICIT then ndpNsProcessAt icmph
  else if type = ICMPV6_NEIGHBOR_ADVERT then ndpNaProcessAt debug h ip6h icmph
  else return some .nothing

/-! ## What is asked -/

/-- The addresses from `lo` to below `hi`. -/
def Span (lo hi : Int) : Int → Prop := fun a => lo ≤ a ∧ a < hi

/-- The bytes of the message, without its options. -/
def fixedPart (type : U8) : Nat :=
  if type = ICMPV6_ROUTER_ADVERT then 16
  else if type = ICMPV6_NEIGHBOR_SOLICIT ∨ type = ICMPV6_NEIGHBOR_ADVERT then 24
  else 0

section claim
variable (m : List U8) (payload : Nat)

/-- Where the message at `payload` ends. -/
def messageEnd : Nat := payload + (icmpv6Len m payload).toNat

/-- What the frame's message makes `ndp_incoming` read. -/
def ndpReadAt (debug : Bool) (h : Host6) : Prog U8 (Option NdpRead) :=
  ndpIncomingAt debug h (ipv6Hdr m) (m.getD payload 0) payload

/-- The handlers read nothing but the message, drop it if it is short of its fixed
part, and come to an end. -/
structure ReadsItsMessage (debug : Bool) (h : Host6) : Prop where
  reads : (ndpReadAt m payload debug h).Within (frameMem m) (Span payload (messageEnd m payload))
  drops : (icmpv6Len m payload).toNat < fixedPart (m.getD payload 0) → h.ndpIncoming (ndpMsgAt m payload) = h
  ends : ((ndpReadAt m payload debug h).val (frameMem m)).isSome

end claim

/-! ## Where the options lead -/

/-- Options one behind the other lead from `first` to `opt`. -/
inductive OptionAt (m : List U8) : (first opt : Nat) → Prop
  | here (opt : Nat) : OptionAt m opt opt
  | skip {first opt : Nat} (length : m.getD (first + 1) 0 ≠ 0) (rest : OptionAt m (first + (m.getD (first + 1) 0).toNat * 8) opt) :
      OptionAt m first opt

/-- An option of which more than type and length are read. -/
structure UsedOpt where
  type : U8
  length : U8

def raUsed : UsedOpt := ⟨NDP_OPT_PREFIX, 4⟩
def naUsed : UsedOpt := ⟨NDP_OPT_TLLA, 1⟩

/-- The message, which ends at `e`, has no type and length at `opt`; or it does not
have the whole of an option that is used, though that ends by `lim`. -/
def SticksOut (m : List U8) (used : UsedOpt) (lim e opt : Nat) : Prop :=
  e < opt + 2 ∨ (m.getD opt 0 = used.type ∧ m.getD (opt + 1) 0 = used.length ∧ opt + used.length.toNat * 8 ≤ lim ∧
    e < opt + used.length.toNat * 8)

/-- From `first` on, the options lead to such a place, eight bytes or more before
`lim`. -/
def Strays (m : List U8) (used : UsedOpt) (lim e first : Nat) : Prop := ∃ opt, OptionAt m first opt ∧ opt + 8 ≤ lim ∧ SticksOut m used lim e opt

/-- The message is short of its fixed part, or its options lead out of it, if they
are followed for `payload_len` bytes. -/
inductive Overread (m : List U8) (payload : Nat) : Prop
  | short (hopLimit : (ipv6Hdr m).hopLimit = 255) (len : (icmpv6Len m payload).toNat < fixedPart (m.getD payload 0))
  | ra (hopLimit : (ipv6Hdr m).hopLimit = 255) (type : m.getD payload 0 = ICMPV6_ROUTER_ADVERT)
      (strays : Strays m raUsed (payload + (ipv6Hdr m).payloadLen.toNat) (messageEnd m payload) (payload + 16))
  | na (hopLimit : (ipv6Hdr m).hopLimit = 255) (type : m.getD payload 0 = ICMPV6_NEIGHBOR_ADVERT)
      (strays : Strays m naUsed (payload + (ipv6Hdr m).payloadLen.toNat) (messageEnd m payload) (payload + 24))

section strays
variable {m : List U8} {used : UsedOpt} {lim e first opt : Nat}

theorem OptionAt.le (h : OptionAt m first opt) : first ≤ opt := by
  induction h with
  | here => exact le_refl _
  | skip _ _ ih => omega

theorem not_strays (h : lim < first + 8) : ¬ Strays m used lim e first := by
  rintro ⟨opt, hopt, hlim, -⟩
  have := hopt.le
  omega

/-- One option further. -/
theorem strays_iff : Strays m used lim e first ↔ (first + 8 ≤ lim ∧ SticksOut m used lim e first) ∨
    (m.getD (first + 1) 0 ≠ 0 ∧ Strays m used lim e (first + (m.getD (first + 1) 0).toNat * 8)) := by
  constructor
  · rintro ⟨opt, hopt, hlim, hout⟩
    cases hopt with
    | here => exact .inl ⟨hlim, hout⟩
    | skip hne rest => exact .inr ⟨hne, opt, rest, hlim, hout⟩
  · rintro (⟨hlim, hout⟩ | ⟨hne, opt, rest, hlim, hout⟩)
    · exact ⟨first, .here first, hlim, hout⟩
    · exact ⟨opt, .skip hne rest, hlim, hout⟩

/-- An option that is not followed leads nowhere else. -/
theorem not_strays_stop (hin : first + 1 < e) (hstop : (m.getD (first + 1) 0).toNat * 8 = 0 ∨ lim < first + (m.getD (first + 1) 0).toNat * 8)
    (hused : used.length ≠ 0) : ¬ Strays m used lim e first := by
  rw [strays_iff]
  rintro (⟨-, hout⟩ | ⟨hne, hs⟩)
  · rcases hout with h | ⟨-, hlen, hfit, -⟩
    · omega
    · have hpos : used.length.toNat ≠ 0 := fun h => hused (BitVec.eq_of_toNat_eq h)
      rw [hlen] at hstop
      omega
  · have hpos : (m.getD (first + 1) 0).toNat ≠ 0 := fun h => hne (BitVec.eq_of_toNat_eq h)
    exact not_strays (by omega) hs

/-- An option that is followed. -/
theorem strays_step (hin : first + 1 < e) (hmore : first + 8 ≤ lim) (hgo : (m.getD (first + 1) 0).toNat * 8 ≠ 0) :
    Strays m used lim e first ↔
      (m.getD first 0 = used.type ∧ m.getD (first + 1) 0 = used.length ∧ first + used.length.toNat * 8 ≤ lim ∧
        e < first + used.length.toNat * 8) ∨ Strays m used lim e (first + (m.getD (first + 1) 0).toNat * 8) := by
  have hne : m.getD (first + 1) 0 ≠ 0 := fun h => hgo (by rw [h]; rfl)
  rw [strays_iff, and_iff_right hmore, and_iff_right hne, SticksOut, or_iff_right (show ¬ e < first + 2 by omega)]

end strays

/-! ## The loops -/

section loops
variable {m : List U8} {turns lim lo e opt : Nat}

theorem within_prefixOptAt {mem : Memory.Mem U8} {pfx lo hi : Int} (hlo : lo ≤ pfx) :
    (prefixOptAt pfx).Within mem (Span lo hi) ↔ pfx + 32 ≤ hi := by
  unfold prefixOptAt
  rw [Prog.within_bind_iff, Prog.within_bind_iff, Prog.within_bind_iff, Prog.within_bind_iff]
  constructor
  · rintro ⟨-, hpre, -⟩
    have hlast := Prog.within_cells_iff.mp (Prog.within_bind_iff.mp hpre).1 (pfx + 31) (by omega) (by omega)
    have := hlast.2
    omega
  · intro hhi
    exact ⟨Prog.within_cell ⟨by omega, by omega⟩, within_in6AddrAt fun a ha hlt => ⟨by omega, by omega⟩,
      within_ntohlAt fun a ha hlt => ⟨by omega, by omega⟩, within_ntohlAt fun a ha hlt => ⟨by omega, by omega⟩, Prog.within_pure _⟩

/-- What the loop of `ndp_ra_process` reads of the options from `opt` on. -/
theorem within_raOptions (hlo : lo ≤ opt) (hturns : (lim : Int) - opt < 8 * turns) :
    (raOptions turns opt ((lim : Int) - opt)).Within (frameMem m) (Span lo e) ↔ ¬ Strays m raUsed lim e opt := by
  induction turns generalizing opt with
  | zero => exact iff_of_true (Prog.within_pure _) (not_strays (by omega))
  | succ turns ih =>
    unfold raOptions
    by_cases hmore : (lim : Int) - opt < 8
    · rw [if_pos hmore]
      exact iff_of_true (Prog.within_pure _) (not_strays (by omega))
    rw [if_neg hmore, Prog.within_bind_iff, Prog.within_cell_iff]
    by_cases hlen : opt + 1 < e
    · have hat1 : frameMem m ((opt : Int) + 1) = m.getD (opt + 1) 0 := rfl
      rw [and_iff_right (show Span lo e ((opt : Int) + 1) from ⟨by omega, by omega⟩), Prog.val_cell, hat1]
      dsimp only
      by_cases hstop : (m.getD (opt + 1) 0).toNat * 8 = 0 ∨ (lim : Int) - opt < ((m.getD (opt + 1) 0).toNat * 8 : Nat)
      · rw [if_pos hstop]
        exact iff_of_true (Prog.within_pure _) (not_strays_stop hlen (by omega) (by decide))
      have hnext : (opt : Int) + ((m.getD (opt + 1) 0).toNat * 8 : Nat) = ((opt + (m.getD (opt + 1) 0).toNat * 8 : Nat) : Int) :=
        (Nat.cast_add _ _).symm
      have hleft : (lim : Int) - opt - ((m.getD (opt + 1) 0).toNat * 8 : Nat) =
          (lim : Int) - ((opt + (m.getD (opt + 1) 0).toNat * 8 : Nat) : Int) := by omega
      have hih := @ih (opt + (m.getD (opt + 1) 0).toNat * 8) (by omega) (by omega)
      rw [if_neg hstop, strays_step hlen (by omega) (by omega), Prog.within_bind_iff, Prog.within_cell_iff, Prog.val_cell, frameMem_cast,
        hnext, hleft, and_iff_right (show Span lo e opt from ⟨by omega, by omega⟩), not_or, ← hih]
      by_cases hused : m.getD opt 0 = NDP_OPT_PREFIX ∧ m.getD (opt + 1) 0 = 4
      · have hfour : (m.getD (opt + 1) 0).toNat = 4 := by rw [hused.2]; rfl
        have hout : ¬ (m.getD opt 0 = raUsed.type ∧ m.getD (opt + 1) 0 = raUsed.length ∧ opt + raUsed.length.toNat * 8 ≤ lim ∧
            e < opt + raUsed.length.toNat * 8) ↔ (opt : Int) + 32 ≤ e := by
          have hlength : raUsed.length.toNat = 4 := rfl
          rw [hlength]
          constructor
          · intro h
            by_contra hlt
            exact h ⟨hused.1, hused.2, by omega, by omega⟩
          · rintro h ⟨-, -, -, hlt⟩
            omega
        rw [if_pos hused, Prog.within_bind_iff, Prog.within_bind_iff, within_prefixOptAt (by omega), hout]
        exact and_congr_right fun _ => and_iff_left (Prog.within_pure _)
      · rw [if_neg hused]
        exact (and_iff_right fun h => hused ⟨h.1, h.2.1⟩).symm
    · refine iff_of_false (fun h => ?_) fun h => h (strays_iff.mpr (.inl ⟨by omega, .inl (by omega)⟩))
      have := h.1.2
      omega

theorem within_takeTlla {mem : Memory.Mem U8} {opt lo hi : Int} {type length : U8} {found : Option HwAddr} (hlo : lo ≤ opt) :
    (takeTlla opt type length found).Within mem (Span lo hi) ↔ (type = NDP_OPT_TLLA ∧ length = 1 → opt + 8 ≤ hi) := by
  unfold takeTlla
  split
  next hused =>
    rw [Prog.within_bind_iff, hwAddrAt, Prog.within_bind_iff, Prog.within_cells_iff, imp_iff_right hused]
    constructor
    · intro h
      have hlast := h.1.1 (opt + 7) (by omega) (by omega)
      have := hlast.2
      omega
    · exact fun h => ⟨⟨fun a ha hlt => ⟨by omega, by omega⟩, Prog.within_pure _⟩, Prog.within_pure _⟩
  next hused => exact iff_of_true (Prog.within_pure _) fun h => absurd h hused

/-- The same for `ndp_na_process`. -/
theorem within_naOptions (hlo : lo ≤ opt) (hturns : (lim : Int) - opt < 8 * turns) (found : Option HwAddr) :
    (naOptions turns opt ((lim : Int) - opt) found).Within (frameMem m) (Span lo e) ↔ ¬ Strays m naUsed lim e opt := by
  induction turns generalizing opt found with
  | zero => exact iff_of_true (Prog.within_pure _) (not_strays (by omega))
  | succ turns ih =>
    unfold naOptions
    by_cases hmore : (lim : Int) - opt < 8
    · rw [if_pos hmore]
      exact iff_of_true (Prog.within_pure _) (not_strays (by omega))
    have hat1 : frameMem m ((opt : Int) + 1) = m.getD (opt + 1) 0 := rfl
    rw [if_neg hmore, Prog.within_bind_iff, Prog.within_cell_iff, Prog.val_cell, frameMem_cast, Prog.within_bind_iff,
      Prog.within_cell_iff, Prog.val_cell, hat1, Prog.within_bind_iff]
    by_cases hlen : opt + 1 < e
    · rw [and_iff_right (show Span lo e opt from ⟨by omega, by omega⟩),
        and_iff_right (show Span lo e ((opt : Int) + 1) from ⟨by omega, by omega⟩)]
      rw [within_takeTlla (by omega)]
      dsimp only
      by_cases hstop : (m.getD (opt + 1) 0).toNat * 8 = 0
      · rw [if_pos hstop]
        refine iff_of_true ⟨fun h => ?_, Prog.within_pure _⟩ (not_strays_stop hlen (.inl hstop) (by decide))
        rw [h.2] at hstop
        cases hstop
      have hnext : (opt : Int) + ((m.getD (opt + 1) 0).toNat * 8 : Nat) = ((opt + (m.getD (opt + 1) 0).toNat * 8 : Nat) : Int) :=
        (Nat.cast_add _ _).symm
      have hleft : (lim : Int) - opt - ((m.getD (opt + 1) 0).toNat * 8 : Nat) =
          (lim : Int) - ((opt + (m.getD (opt + 1) 0).toNat * 8 : Nat) : Int) := by omega
      rw [if_neg hstop, strays_step hlen (by omega) hstop, hnext, hleft, not_or, ih (by omega) (by omega)]
      refine and_congr_left fun _ => ?_
      have hlength : naUsed.length.toNat = 1 := rfl
      rw [hlength]
      constructor
      · rintro h ⟨ht, hl, -, hlt⟩
        have := h ⟨ht, hl⟩
        omega
      · intro h hused
        by_contra hlt
        exact h ⟨hused.1, hused.2, by omega, by omega⟩
    · refine iff_of_false (fun h => ?_) fun h => h (strays_iff.mpr (.inl ⟨by omega, .inl (by omega)⟩))
      have := h.2.1.2
      omega

end loops

/-! ## Their values -/

section values
variable {m : List U8} {turns opt : Nat} {optlen : Int}

theorem getD_drop (m : List U8) (i k : Nat) : (m.drop i).getD k 0 = m.getD (i + k) 0 := by
  rw [List.getD_eq_getElem?_getD, List.getElem?_drop, ← List.getD_eq_getElem?_getD]

theorem val_prefixOptAt : (prefixOptAt opt).val (frameMem m) =
    { prefixLen := (m.drop opt).getD 2 0, validLifetime := be32 (m.drop opt) 4, preferredLifetime := be32 (m.drop opt) 8,
      pre := in6At (m.drop opt) 16 } := by
  have h4 : be32 (m.drop opt) 4 = be32 m (opt + 4) := by simp only [be32, getD_drop, Nat.add_assoc]
  have h8 : be32 (m.drop opt) 8 = be32 m (opt + 8) := by simp only [be32, getD_drop, Nat.add_assoc]
  have h16 : in6At (m.drop opt) 16 = in6At m (opt + 16) := by simp only [in6At, getD_drop, Nat.add_assoc]
  have hpre := val_in6AddrAt m (opt + 16)
  have hvalid := val_ntohlAt m (opt + 4)
  have hpreferred := val_ntohlAt m (opt + 8)
  rw [Nat.cast_add, Nat.cast_ofNat] at hpre hvalid hpreferred
  have hlen : frameMem m ((opt : Int) + 2) = m.getD (opt + 2) 0 := rfl
  simp only [prefixOptAt, Prog.val_bind, Prog.val_cell, Prog.val_pure, hpre, hvalid, hpreferred, hlen, h4, h8, h16, getD_drop]

/-- The loop ends, with the prefixes of the message. -/
theorem val_raOptions (hturns : optlen < 8 * turns) :
    (raOptions turns opt optlen).val (frameMem m) = some (raPrefixes turns (m.drop opt) optlen) := by
  induction turns generalizing opt optlen with
  | zero =>
    rw [raOptions, Prog.val_pure, if_pos (by omega)]
    rfl
  | succ turns ih =>
    have hat0 : frameMem m (opt : Int) = (m.drop opt).getD 0 0 := (getD_drop m opt 0).symm
    have hat1 : frameMem m ((opt : Int) + 1) = (m.drop opt).getD 1 0 := (getD_drop m opt 1).symm
    unfold raOptions raPrefixes
    by_cases hmore : optlen < 8
    · rw [if_pos hmore, if_pos (.inl hmore)]
      rfl
    rw [if_neg hmore, Prog.val_bind, Prog.val_cell, hat1]
    dsimp only
    have hrest := @ih (opt + ((m.drop opt).getD 1 0).toNat * 8) (optlen - (((m.drop opt).getD 1 0).toNat * 8 : Nat))
    rw [Nat.cast_add, ← List.drop_drop] at hrest
    by_cases hstop : ((m.drop opt).getD 1 0).toNat * 8 = 0 ∨ optlen < (((m.drop opt).getD 1 0).toNat * 8 : Nat)
    · rw [if_pos hstop, if_pos (.inr hstop)]
      rfl
    rw [if_neg hstop, if_neg (not_or.mpr ⟨hmore, hstop⟩), Prog.val_bind, Prog.val_cell, hat0]
    split
    · rw [Prog.val_bind, val_prefixOptAt, Prog.val_bind, hrest (by omega)]
      rfl
    · exact hrest (by omega)

theorem val_takeTlla (type length : U8) (found : Option HwAddr) : (takeTlla opt type length found).val (frameMem m) =
    if type = NDP_OPT_TLLA ∧ length = 1 then some (hwAt (m.drop opt) 2) else found := by
  have h2 : hwAt (m.drop opt) 2 = hwAt m (opt + 2) := by simp only [hwAt, getD_drop, Nat.add_assoc]
  have htlla := val_hwAddrAt m (opt + 2)
  rw [Nat.cast_add, Nat.cast_ofNat] at htlla
  unfold takeTlla
  split
  · rw [Prog.val_bind, htlla, h2, Prog.val_pure]
  · rfl

/-- The loop ends, with the link-layer address of the message. -/
theorem val_naOptions (found : Option HwAddr) (hturns : optlen < 8 * turns) :
    (naOptions turns opt optlen found).val (frameMem m) = some (naTlla turns (m.drop opt) optlen found) := by
  induction turns generalizing opt optlen found with
  | zero =>
    rw [naOptions, Prog.val_pure, if_pos (by omega)]
    rfl
  | succ turns ih =>
    have hat0 : frameMem m (opt : Int) = (m.drop opt).getD 0 0 := (getD_drop m opt 0).symm
    have hat1 : frameMem m ((opt : Int) + 1) = (m.drop opt).getD 1 0 := (getD_drop m opt 1).symm
    unfold naOptions naTlla
    by_cases hmore : optlen < 8
    · rw [if_pos hmore, if_pos hmore]
      rfl
    rw [if_neg hmore, if_neg hmore, Prog.val_bind, Prog.val_cell, hat0, Prog.val_bind, Prog.val_cell, hat1, Prog.val_bind, val_takeTlla]
    dsimp only
    split
    · rfl
    · have hrest := @ih (opt + ((m.drop opt).getD 1 0).toNat * 8) (optlen - (((m.drop opt).getD 1 0).toNat * 8 : Nat))
      rw [Nat.cast_add, ← List.drop_drop] at hrest
      exact hrest _ (by omega)

end values

/-- What the handlers take from a message, in the state `h`. -/
def Host6.takenFrom (h : Host6) (msg : NdpMsg) : NdpRead :=
  if msg.hopLimit ≠ 255 then .nothing
  else if msg.type = ICMPV6_ROUTER_ADVERT then .ra msg.prefixes
  else if msg.type = ICMPV6_NEIGHBOR_SOLICIT then .ns msg.target
  else if msg.type = ICMPV6_NEIGHBOR_ADVERT then
    .na msg.target msg.tlla (match msg.tlla, h.ndpLookup msg.target with
      | some _, some entry => if entry.state = .incomplete then none else some (msg.bytes.getD 4 0)
      | _, _ => none)
  else .nothing

section handlers
variable {m : List U8} {payload : Nat} {debug : Bool} {h : Host6}

theorem type_ndpMsgAt : (ndpMsgAt m payload).type = m.getD payload 0 := getD_drop m payload 0

theorem val_target : (in6AddrAt ((payload : Int) + 8)).val (frameMem m) = (ndpMsgAt m payload).target := by
  have htarget := val_in6AddrAt m (payload + 8)
  rw [Nat.cast_add, Nat.cast_ofNat] at htarget
  rw [htarget]
  simp only [NdpMsg.target, ndpMsgAt, in6At, getD_drop, Nat.add_assoc]

theorem val_naFlags (target : In6Addr) : (naFlags h target payload).val (frameMem m) =
    match h.ndpLookup target with
    | some entry => if entry.state = .incomplete then none else some ((ndpMsgAt m payload).bytes.getD 4 0)
    | none => none := by
  have hflags : frameMem m ((payload : Int) + 4) = (ndpMsgAt m payload).bytes.getD 4 0 := (getD_drop m payload 4).symm
  unfold naFlags
  cases h.ndpLookup target with
  | none => rfl
  | some entry =>
    dsimp only
    split
    · rfl
    · rw [Prog.val_bind, Prog.val_cell, hflags, Prog.val_pure]

/-- The handlers come to an end, and have taken from the message what the model's
message has. -/
theorem val_ndpReadAt : (ndpReadAt m payload debug h).val (frameMem m) = some (h.takenFrom (ndpMsgAt m payload)) := by
  have hlt : (((ipv6Hdr m).payloadLen.toNat : Int) - 16) < 8 * (ipv6Hdr m).payloadLen.toNat := by omega
  have hlt' : (((ipv6Hdr m).payloadLen.toNat : Int) - 24) < 8 * (ipv6Hdr m).payloadLen.toNat := by omega
  have hra := @val_raOptions m _ (payload + 16) _ hlt
  have hna := @val_naOptions m _ (payload + 24) _ none hlt'
  rw [Nat.cast_add, Nat.cast_ofNat, ← List.drop_drop] at hra hna
  unfold ndpReadAt ndpIncomingAt Host6.takenFrom
  rw [type_ndpMsgAt]
  have hhop : (ndpMsgAt m payload).hopLimit = (ipv6Hdr m).hopLimit := rfl
  rw [hhop]
  split
  · rfl
  split
  · rw [ndpRaProcessAt, Prog.val_bind, Prog.val_bind, hra]
    rfl
  split
  · rw [ndpNsProcessAt, Prog.val_bind, val_target]
    rfl
  split
  · have htlla : (ndpMsgAt m payload).tlla =
        naTlla (ipv6Hdr m).payloadLen.toNat ((m.drop payload).drop 24) ((ipv6Hdr m).payloadLen.toNat - 24) none := rfl
    rw [ndpNaProcessAt, Prog.val_bind, Prog.val_bind, Prog.val_bind, hna, val_target, ← htlla]
    cases (ndpMsgAt m payload).tlla with
    | none => rfl
    | some tlla =>
      dsimp only
      rw [Prog.val_bind, Prog.val_pure, val_naFlags]
      cases h.ndpLookup (ndpMsgAt m payload).target with
      | none => rfl
      | some entry => rfl
  · rfl

/-! ## What is read -/

variable {e : Nat}

theorem within_target : (in6AddrAt ((payload : Int) + 8)).Within (frameMem m) (Span payload e) ↔ payload + 24 ≤ e := by
  constructor
  · intro h
    have hlast := Prog.within_cells_iff.mp (Prog.within_bind_iff.mp h).1 (payload + 23) (by omega) (by omega)
    have := hlast.2
    omega
  · exact fun h => within_in6AddrAt fun a ha hlt => ⟨by omega, by omega⟩

theorem within_ndpDbg {args : Prog U8 Unit} {mem : Memory.Mem U8} {R : Int → Prop} (h : args.Within mem R) :
    (ndpDbg debug args).Within mem R := by
  unfold ndpDbg
  split
  · exact h
  · exact Prog.within_pure _

theorem within_ndpRaProcessAt {ip6h : Ipv6hdr} (he : payload + 16 ≤ e) :
    (ndpRaProcessAt debug ip6h payload).Within (frameMem m) (Span payload e) ↔
      ¬ Strays m raUsed (payload + ip6h.payloadLen.toNat) e (payload + 16) := by
  have hopt : (payload : Int) + 16 = ((payload + 16 : Nat) : Int) := rfl
  have hleft : (ip6h.payloadLen.toNat : Int) - 16 = ((payload + ip6h.payloadLen.toNat : Nat) : Int) - ((payload + 16 : Nat) : Int) := by
    omega
  have hdbg : (ndpDbg debug do
      let _curHopLimit ← Prog.cell ((payload : Int) + 4)
      let _routerLifetime ← ntohsAt (payload + 6)).Within (frameMem m) (Span payload e) :=
    within_ndpDbg (Prog.within_bind (Prog.within_cell ⟨by omega, by omega⟩)
      (Prog.within_bind (within_ntohsAt ⟨by omega, by omega⟩ ⟨by omega, by omega⟩) (Prog.within_pure _)))
  unfold ndpRaProcessAt
  rw [Prog.within_bind_iff, and_iff_right hdbg, Prog.within_bind_iff, hopt, hleft, within_raOptions (by omega) (by omega)]
  exact and_iff_left (Prog.within_pure _)

theorem within_ndpNaProcessAt {ip6h : Ipv6hdr} (he : payload + 24 ≤ e) :
    (ndpNaProcessAt debug h ip6h payload).Within (frameMem m) (Span payload e) ↔
      ¬ Strays m naUsed (payload + ip6h.payloadLen.toNat) e (payload + 24) := by
  have hopt : (payload : Int) + 24 = ((payload + 24 : Nat) : Int) := rfl
  have hleft : (ip6h.payloadLen.toNat : Int) - 24 = ((payload + ip6h.payloadLen.toNat : Nat) : Int) - ((payload + 24 : Nat) : Int) := by
    omega
  have hflags : (Prog.cell ((payload : Int) + 4) : Prog U8 U8).Within (frameMem m) (Span payload e) :=
    Prog.within_cell ⟨by omega, by omega⟩
  have hdbg : (ndpDbg debug do
      let _flags ← Prog.cell ((payload : Int) + 4)).Within (frameMem m) (Span payload e) :=
    within_ndpDbg (Prog.within_bind hflags (Prog.within_pure _))
  unfold ndpNaProcessAt
  rw [Prog.within_bind_iff, and_iff_right (within_target.mpr he), Prog.within_bind_iff, and_iff_right hdbg, Prog.within_bind_iff,
    hopt, hleft, within_naOptions (by omega) (by omega)]
  refine and_iff_left ?_
  split
  · exact Prog.within_pure _
  · exact Prog.within_pure _
  · refine Prog.within_bind ?_ (Prog.within_pure _)
    unfold naFlags
    split
    · exact Prog.within_pure _
    · split
      · exact Prog.within_pure _
      · exact Prog.within_bind hflags (Prog.within_pure _)

end handlers

/-! ## The message and no more -/

section claim
variable {m : List U8} {payload : Nat} {debug : Bool} {h : Host6}

theorem fixedPart_ra : fixedPart ICMPV6_ROUTER_ADVERT = 16 := rfl
theorem fixedPart_ns : fixedPart ICMPV6_NEIGHBOR_SOLICIT = 24 := rfl
theorem fixedPart_na : fixedPart ICMPV6_NEIGHBOR_ADVERT = 24 := rfl

/-- A short Router Advertisement still adds its default route; the handlers of the
other two read the target. -/
theorem ReadsItsMessage.not_short (hr : ReadsItsMessage m payload debug h) (hhop : (ipv6Hdr m).hopLimit = 255) :
    ¬ (icmpv6Len m payload).toNat < fixedPart (m.getD payload 0) := by
  intro hlen
  have hreads := hr.reads
  have hdrops := hr.drops hlen
  unfold ndpReadAt ndpIncomingAt at hreads
  rw [if_neg (not_not_intro hhop)] at hreads
  unfold fixedPart at hlen
  split at hlen
  next htype =>
    have hroutes := h.ndpIncoming_routes (ndpMsgAt m payload)
    have hadv : (ndpMsgAt m payload).advertises = true := by
      rw [NdpMsg.advertises, type_ndpMsgAt, htype]
      exact Bool.and_eq_true_iff.mpr ⟨decide_eq_true hhop, rfl⟩
    rw [hdrops, if_pos hadv] at hroutes
    exact absurd hroutes (by simp)
  next hra =>
    rw [if_neg hra] at hreads
    split at hlen
    next htype =>
      have htarget : (in6AddrAt ((payload : Int) + 8)).Within (frameMem m) (Span payload (messageEnd m payload)) := by
        split at hreads
        · exact (Prog.within_bind_iff.mp hreads).1
        next hns =>
          rw [if_pos (htype.resolve_left hns)] at hreads
          exact (Prog.within_bind_iff.mp hreads).1
      have := within_target.mp htarget
      unfold messageEnd at this
      omega
    · omega

theorem ReadsItsMessage.not_overread (hr : ReadsItsMessage m payload debug h) : ¬ Overread m payload := by
  intro ho
  have hreads := hr.reads
  unfold ndpReadAt ndpIncomingAt at hreads
  cases ho with
  | short hhop hlen => exact hr.not_short hhop hlen
  | ra hhop htype hstrays =>
    have hlong := hr.not_short hhop
    rw [htype, fixedPart_ra, not_lt] at hlong
    rw [if_neg (not_not_intro hhop), htype, if_pos rfl] at hreads
    exact (within_ndpRaProcessAt (Nat.add_le_add_left hlong payload)).mp hreads hstrays
  | na hhop htype hstrays =>
    have hlong := hr.not_short hhop
    rw [htype, fixedPart_na, not_lt] at hlong
    rw [if_neg (not_not_intro hhop), htype, if_neg (by decide), if_neg (by decide), if_pos rfl] at hreads
    exact (within_ndpNaProcessAt (Nat.add_le_add_left hlong payload)).mp hreads hstrays

/-- **The handlers read only their message**, and drop it if it is short, unless it
is overread. -/
theorem readsItsMessage_iff (m : List U8) (payload : Nat) (debug : Bool) (h : Host6) :
    ReadsItsMessage m payload debug h ↔ ¬ Overread m payload := by
  refine ⟨ReadsItsMessage.not_overread, fun hno => ⟨?_, fun hlen => ?_, by rw [val_ndpReadAt]; rfl⟩⟩
  · unfold ndpReadAt ndpIncomingAt
    split
    · exact Prog.within_pure _
    next hhop =>
      rw [not_not] at hhop
      have hlong : ¬ (icmpv6Len m payload).toNat < fixedPart (m.getD payload 0) := fun hlen => hno (.short hhop hlen)
      split
      next htype =>
        rw [htype, fixedPart_ra, not_lt] at hlong
        exact (within_ndpRaProcessAt (Nat.add_le_add_left hlong payload)).mpr fun hs => hno (.ra hhop htype hs)
      split
      next htype =>
        rw [htype, fixedPart_ns, not_lt] at hlong
        exact Prog.within_bind (within_target.mpr (Nat.add_le_add_left hlong payload)) (Prog.within_pure _)
      split
      next htype =>
        rw [htype, fixedPart_na, not_lt] at hlong
        exact (within_ndpNaProcessAt (Nat.add_le_add_left hlong payload)).mpr fun hs => hno (.na hhop htype hs)
      · exact Prog.within_pure _
  · have hhop : (ndpMsgAt m payload).hopLimit ≠ 255 := fun hhop => hno (.short hhop hlen)
    rw [Host6.ndpIncoming, if_pos hhop]

/-- Without extension headers only the length counts. -/
theorem not_strays_bare {used : UsedOpt} {lim first : Nat} : ¬ Strays m used lim lim first := by
  rintro ⟨opt, -, hlim, hout⟩
  rcases hout with hlt | ⟨-, -, hle, hlt⟩ <;> omega

end claim

/-- A Neighbor Advertisement of 32 bytes behind a Hop-by-Hop Options header of
eight. -/
def advertBehindOptions : List U8 :=
  (Packet6.toAllNodes 255 ([136, 0, 0x9f, 0xff, 0x60, 0, 0, 0] ++ Host6.llPrefix.toList ++
    [2, 1, 0, 12, 41, 109, 80, 37])).withChain NEXTHDR_HOP Packet6.hopByHop

/-- It comes to the handler, which takes the eight bytes behind it for an option. -/
theorem advert_overread : ipv6Rcv advertBehindOptions = .icmpv6Incoming 62 ∧
    icmpv6Checksum (ipv6Hdr advertBehindOptions).saddr (ipv6Hdr advertBehindOptions).daddr advertBehindOptions 62
      (icmpv6Len advertBehindOptions 62) = 0 ∧
    ∀ (debug : Bool) (h : Host6), ¬ ReadsItsMessage advertBehindOptions 62 debug h := by
  refine ⟨by decide +kernel, by decide +kernel, fun debug h hr => ?_⟩
  have hopt : OptionAt advertBehindOptions (62 + 24) 94 := .skip (by decide) (.here 94)
  exact hr.not_overread (.na (by decide) (by decide) ⟨94, hopt, by decide, .inl (by decide)⟩)

end LevelIp
