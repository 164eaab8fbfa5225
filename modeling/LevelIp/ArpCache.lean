/-
The ARP cache against the packets that were received. An entry is made for who
asks for our address, and overwritten by every packet its address is said to come
from; the cache is the map of the last such sender.
-/
import LevelIp.Packets
import LevelIp.Ndp
import LevelIp.Lib.Keyed

namespace LevelIp

def ARP_ETHERNET : U16 := 0x0001
def ARP_IPV4 : U16 := 0x0800
def ARP_REQUEST : U16 := 0x0001

/-- `struct arp_hdr` in host byte order, as far as it is read. -/
structure ArpHdr where
  hwtype : U16
  protype : U16
  opcode : U16

/-- `struct arp_ipv4` in host byte order, as far as it is read. -/
structure ArpIpv4 where
  smac : HwAddr
  sip : U32
  dip : U32

/-- `arp_hdr`. -/
def arpHdr (m : List U8) : ArpHdr where
  hwtype := be16 m ETH_HDR_LEN
  protype := be16 m (ETH_HDR_LEN + 2)
  opcode := be16 m (ETH_HDR_LEN + 6)

/-- `arphdr->data`. -/
def arpData (m : List U8) : ArpIpv4 where
  smac := hwAt m (ETH_HDR_LEN + 8)
  sip := be32 m (ETH_HDR_LEN + 14)
  dip := be32 m (ETH_HDR_LEN + 24)

inductive ArpState where
  | free | waiting | resolved
deriving DecidableEq

/-- `struct arp_cache_entry`. -/
structure ArpCacheEntry where
  hwtype : U16
  sip : U32
  smac : HwAddr
  state : ArpState
deriving DecidableEq

/-- `memcpy(entry->smac, data->smac, 6)`. -/
def ArpCacheEntry.setSmac (smac : HwAddr) (entry : ArpCacheEntry) : ArpCacheEntry := { entry with smac := smac }

/-- `arp_entry_alloc`. -/
def arpEntryAlloc (hdr : ArpHdr) (data : ArpIpv4) : ArpCacheEntry where
  hwtype := hdr.hwtype
  sip := data.sip
  smac := data.smac
  state := .resolved

/-- `insert_arp_translation_table`. -/
def insertArpTranslationTable (hdr : ArpHdr) (data : ArpIpv4) (cache : List ArpCacheEntry) : List ArpCacheEntry :=
  cache ++ [arpEntryAlloc hdr data]

/-- `update_arp_translation_table`: the cache, and whether an entry was merged. -/
def updateArpTranslationTable (hdr : ArpHdr) (data : ArpIpv4) : List ArpCacheEntry → List ArpCacheEntry × Bool
  | [] => ([], false)
  | entry :: rest =>
    if entry.hwtype = hdr.hwtype ∧ entry.sip = data.sip then (entry.setSmac data.smac :: rest, true)
    else
      let (rest, merge) := updateArpTranslationTable hdr data rest
      (entry :: rest, merge)

/-- What becomes of the skb of a received packet. -/
inductive ArpVerdict where
  | dropPkt | arpReply
deriving DecidableEq

/-- `arp_rcv`, on a device with the address `addr`. -/
def arpRcv (addr : U32) (m : List U8) (cache : List ArpCacheEntry) : List ArpCacheEntry × ArpVerdict :=
  let hdr := arpHdr m
  if hdr.hwtype ≠ ARP_ETHERNET then (cache, .dropPkt)
  else if hdr.protype ≠ ARP_IPV4 then (cache, .dropPkt)
  else
    let data := arpData m
    let (cache, merge) := updateArpTranslationTable hdr data cache
    -- `netdev_get`
    if addr ≠ data.dip then (cache, .dropPkt)
    else
      let cache := if merge then cache else insertArpTranslationTable hdr data cache
      if hdr.opcode = ARP_REQUEST then (cache, .arpReply) else (cache, .dropPkt)

/-- `arp_get_hwaddr`. -/
def arpGetHwaddr (cache : List ArpCacheEntry) (sip : U32) : Option HwAddr :=
  (cache.find? fun entry => entry.state = .resolved ∧ entry.sip = sip).map (·.smac)

/-- The cache after the packets. -/
def arpCacheOf (addr : U32) (ms : List (List U8)) : List ArpCacheEntry :=
  ms.foldl (fun cache m => (arpRcv addr m cache).1) []

/-! ## The map it stands for -/

/-- An Ethernet/IPv4 packet with the sender IP `ip`. -/
def ArpFrom (ip : U32) (m : List U8) : Prop :=
  ((arpHdr m).hwtype = ARP_ETHERNET ∧ (arpHdr m).protype = ARP_IPV4) ∧ (arpData m).sip = ip

instance (ip : U32) : DecidablePred (ArpFrom ip) := fun _ => inferInstanceAs (Decidable (_ ∧ _))

/-- One that has our address as target. -/
def ArpForUs (addr ip : U32) (m : List U8) : Prop := ArpFrom ip m ∧ (arpData m).dip = addr

instance (addr ip : U32) : DecidablePred (ArpForUs addr ip) := fun _ => inferInstanceAs (Decidable (_ ∧ _))

/-- The sender MAC of the last packet from `ip`. -/
def lastSender (ip : U32) (ms : List (List U8)) : Option HwAddr := ((ms.filter (ArpFrom ip)).getLast?).map fun m => (arpData m).smac

theorem lastSender_snoc (ip : U32) (ms : List (List U8)) (m : List U8) :
    lastSender ip (ms ++ [m]) = if ArpFrom ip m then some (arpData m).smac else lastSender ip ms := by
  unfold lastSender
  by_cases h : ArpFrom ip m <;> simp [h]

theorem lastSender_isSome {addr ip : U32} {ms : List (List U8)} (h : ∃ m ∈ ms, ArpForUs addr ip m) : (lastSender ip ms).isSome := by
  obtain ⟨m, hm, hus⟩ := h
  have hmem : m ∈ ms.filter (ArpFrom ip) := List.mem_filter.mpr ⟨hm, by simpa using hus.1⟩
  rw [lastSender, List.getLast?_eq_some_getLast (List.ne_nil_of_mem hmem), Option.map_some, Option.isSome_some]

/-! ## One packet -/

theorem ArpCacheEntry.sip_setSmac (smac : HwAddr) (e : ArpCacheEntry) : (e.setSmac smac).sip = e.sip := rfl

/-- What the cache is at any time: resolved Ethernet entries, one for each sender. -/
structure ArpTidy (cache : List ArpCacheEntry) : Prop where
  nodup : (cache.map (·.sip)).Nodup
  ethernet : ∀ e ∈ cache, e.hwtype = ARP_ETHERNET
  resolved : ∀ e ∈ cache, e.state = .resolved

namespace ArpTidy

variable {cache : List ArpCacheEntry} {hdr : ArpHdr} {data : ArpIpv4}

theorem nil : ArpTidy [] := ⟨List.nodup_nil, fun _ h => absurd h List.not_mem_nil, fun _ h => absurd h List.not_mem_nil⟩

/-- The walk of `arp_get_hwaddr` finds by address. -/
theorem getHwaddr (h : ArpTidy cache) (ip : U32) : arpGetHwaddr cache ip = (Keyed.lookup (·.sip) cache ip).map (·.smac) := by
  unfold arpGetHwaddr Keyed.lookup
  congr 1
  refine List.find?_congr fun e he => ?_
  simp [h.resolved e he]

/-- The walk of the update does so too, for an Ethernet packet. -/
theorem update_eq (h : ∀ e ∈ cache, e.hwtype = ARP_ETHERNET) (hh : hdr.hwtype = ARP_ETHERNET) :
    updateArpTranslationTable hdr data cache =
      (Keyed.update (·.sip) cache data.sip (·.setSmac data.smac), (Keyed.lookup (·.sip) cache data.sip).isSome) := by
  induction cache with
  | nil => simp [updateArpTranslationTable, Keyed.update, Keyed.lookup]
  | cons entry rest ih =>
    have hentry : entry.hwtype = hdr.hwtype := (h entry List.mem_cons_self).trans hh.symm
    rw [updateArpTranslationTable, Keyed.update_cons, Keyed.lookup_cons, ih fun e he => h e (List.mem_cons_of_mem _ he)]
    by_cases hsip : entry.sip = data.sip
    · rw [if_pos ⟨hentry, hsip⟩, if_pos hsip, if_pos hsip, Option.isSome_some]
    · rw [if_neg (fun hb => hsip hb.2), if_neg hsip, if_neg hsip]

theorem update (h : ArpTidy cache) (smac : HwAddr) (ip : U32) :
    ArpTidy (Keyed.update (·.sip) cache ip (·.setSmac smac)) := by
  refine ⟨?_, fun e he => ?_, fun e he => ?_⟩
  · rw [Keyed.map_update fun e => e.sip_setSmac smac]
    exact h.nodup
  · obtain he | ⟨x, hx, rfl⟩ := Keyed.mem_update he
    · exact h.ethernet e he
    · exact h.ethernet x (Keyed.mem_of_lookup hx)
  · obtain he | ⟨x, hx, rfl⟩ := Keyed.mem_update he
    · exact h.resolved e he
    · exact h.resolved x (Keyed.mem_of_lookup hx)

theorem insert (h : ArpTidy cache) (hh : hdr.hwtype = ARP_ETHERNET) (hnew : Keyed.lookup (·.sip) cache data.sip = none) :
    ArpTidy (insertArpTranslationTable hdr data cache) := by
  refine ⟨Keyed.nodup_append (x := arpEntryAlloc hdr data) h.nodup hnew, fun e he => ?_, fun e he => ?_⟩
  · obtain he | he := List.mem_append.mp he
    · exact h.ethernet e he
    · rw [List.mem_singleton.mp he]
      exact hh
  · obtain he | he := List.mem_append.mp he
    · exact h.resolved e he
    · rw [List.mem_singleton.mp he]
      rfl

/-- What one packet does to the cache: it changes the entry of its sender, or adds
one where it is for us. -/
theorem arpRcv_eq (h : ArpTidy cache) (addr : U32) (m : List U8) : (arpRcv addr m cache).1 =
    if (arpHdr m).hwtype = ARP_ETHERNET ∧ (arpHdr m).protype = ARP_IPV4 then
      if (Keyed.lookup (·.sip) cache (arpData m).sip).isSome then
        Keyed.update (·.sip) cache (arpData m).sip (·.setSmac (arpData m).smac)
      else if (arpData m).dip = addr then insertArpTranslationTable (arpHdr m) (arpData m) cache
      else cache
    else cache := by
  simp only [LevelIp.arpRcv]
  by_cases hhw : (arpHdr m).hwtype = ARP_ETHERNET
  · by_cases hpro : (arpHdr m).protype = ARP_IPV4
    · rw [if_neg (not_not.mpr hhw), if_neg (not_not.mpr hpro), if_pos (And.intro hhw hpro), update_eq h.ethernet hhw]
      cases hlook : Keyed.lookup (·.sip) cache (arpData m).sip with
      | some e =>
        simp only [Option.isSome_some, if_true]
        split
        · rfl
        · split <;> rfl
      | none =>
        have hsame : Keyed.update (·.sip) cache (arpData m).sip (·.setSmac (arpData m).smac) = cache := Keyed.update_of_none hlook
        simp only [Option.isSome_none, Bool.false_eq_true, if_false, hsame]
        by_cases hdip : (arpData m).dip = addr
        · rw [if_neg (not_not.mpr hdip.symm), if_pos hdip]
          split <;> rfl
        · rw [if_pos (Ne.symm hdip), if_neg hdip]
    · rw [if_neg (not_not.mpr hhw), if_pos hpro, if_neg (fun hb => hpro hb.2)]
  · rw [if_pos hhw, if_neg (fun hb => hhw hb.1)]

theorem arpRcv (h : ArpTidy cache) (addr : U32) (m : List U8) : ArpTidy (LevelIp.arpRcv addr m cache).1 := by
  rw [arpRcv_eq h]
  split
  next hpkt =>
    cases hlook : Keyed.lookup (·.sip) cache (arpData m).sip with
    | some e => exact h.update _ _
    | none =>
      rw [Option.isSome_none, if_neg (by decide)]
      split
      · exact h.insert hpkt.1 hlook
      · exact h
  next => exact h

/-- What one packet does to what is found for an address. -/
theorem getHwaddr_arpRcv (h : ArpTidy cache) (addr : U32) (m : List U8) (ip : U32) :
    arpGetHwaddr (LevelIp.arpRcv addr m cache).1 ip =
      if ArpFrom ip m ∧ ((arpGetHwaddr cache ip).isSome ∨ (arpData m).dip = addr) then some (arpData m).smac
      else arpGetHwaddr cache ip := by
  rw [(h.arpRcv addr m).getHwaddr, h.getHwaddr, arpRcv_eq h, Option.isSome_map]
  by_cases hpkt : (arpHdr m).hwtype = ARP_ETHERNET ∧ (arpHdr m).protype = ARP_IPV4
  · have hfrom : ArpFrom ip m ↔ ip = (arpData m).sip := (and_iff_right hpkt).trans eq_comm
    rw [if_pos hpkt]
    cases hlook : Keyed.lookup (·.sip) cache (arpData m).sip with
    | some e =>
      rw [Option.isSome_some, if_pos rfl, Keyed.lookup_update fun e => e.sip_setSmac _]
      by_cases hip : ip = (arpData m).sip
      · rw [if_pos hip, if_pos ⟨hfrom.mpr hip, .inl (by rw [hip, hlook, Option.isSome_some])⟩, hlook]
        rfl
      · rw [if_neg hip, if_neg (fun hb => hip (hfrom.mp hb.1))]
    | none =>
      rw [Option.isSome_none, if_neg (by decide)]
      by_cases hdip : (arpData m).dip = addr
      · have hnew : Keyed.lookup (·.sip) (cache ++ [arpEntryAlloc (arpHdr m) (arpData m)]) ip =
            if ip = (arpData m).sip then some (arpEntryAlloc (arpHdr m) (arpData m)) else Keyed.lookup (·.sip) cache ip :=
          Keyed.lookup_append hlook ip
        rw [if_pos hdip, insertArpTranslationTable, hnew]
        by_cases hip : ip = (arpData m).sip
        · rw [if_pos hip, if_pos ⟨hfrom.mpr hip, .inr hdip⟩]
          rfl
        · rw [if_neg hip, if_neg (fun hb => hip (hfrom.mp hb.1))]
      · rw [if_neg hdip, if_neg]
        rintro ⟨hf, hs | hd⟩
        · rw [hfrom.mp hf, hlook] at hs
          cases hs
        · exact hdip hd
  · rw [if_neg hpkt, if_neg (fun hb => hpkt hb.1.1)]

end ArpTidy

/-! ## Any packets -/

theorem arpCacheOf_snoc (addr : U32) (ms : List (List U8)) (m : List U8) :
    arpCacheOf addr (ms ++ [m]) = (arpRcv addr m (arpCacheOf addr ms)).1 := by
  rw [arpCacheOf, List.foldl_append]
  rfl

theorem arpTidy_cacheOf (addr : U32) (ms : List (List U8)) : ArpTidy (arpCacheOf addr ms) := by
  induction ms using List.reverseRecOn with
  | nil => exact ArpTidy.nil
  | append_singleton ms m ih =>
    rw [arpCacheOf_snoc]
    exact ih.arpRcv addr m

/-- The last sender is found once a packet of it was for us. -/
theorem arpGetHwaddr_cacheOf (addr : U32) (ms : List (List U8)) (ip : U32) :
    arpGetHwaddr (arpCacheOf addr ms) ip = if ∃ m ∈ ms, ArpForUs addr ip m then lastSender ip ms else none := by
  induction ms using List.reverseRecOn with
  | nil => simp [arpCacheOf, arpGetHwaddr]
  | append_singleton ms m ih =>
    rw [arpCacheOf_snoc, (arpTidy_cacheOf addr ms).getHwaddr_arpRcv, lastSender_snoc, ih]
    have hex : (∃ x ∈ ms ++ [m], ArpForUs addr ip x) ↔ (∃ x ∈ ms, ArpForUs addr ip x) ∨ ArpForUs addr ip m := by
      simp [or_and_right, exists_or]
    by_cases hfrom : ArpFrom ip m
    · by_cases hbefore : ∃ x ∈ ms, ArpForUs addr ip x
      · rw [if_pos hbefore, if_pos ⟨hfrom, .inl (lastSender_isSome hbefore)⟩, if_pos (hex.mpr (.inl hbefore)), if_pos hfrom]
      · by_cases hdip : (arpData m).dip = addr
        · rw [if_pos ⟨hfrom, .inr hdip⟩, if_pos (hex.mpr (.inr ⟨hfrom, hdip⟩)), if_pos hfrom]
        · rw [if_neg hbefore, if_neg (by simp [hdip]), if_neg (fun hx => (hex.mp hx).elim hbefore fun hus => hdip hus.2)]
    · rw [if_neg (fun hb => hfrom hb.1), if_neg hfrom]
      have hsame : (∃ x ∈ ms ++ [m], ArpForUs addr ip x) ↔ ∃ x ∈ ms, ArpForUs addr ip x :=
        hex.trans (or_iff_left fun hus => hfrom hus.1)
      simp only [hsame]

theorem arp_cache_is_map (addr : U32) (ms : List (List U8)) :
    ((arpCacheOf addr ms).map (·.sip)).Nodup ∧ ∀ ip,
      (arpGetHwaddr (arpCacheOf addr ms) ip = none ↔ ¬∃ m ∈ ms, ArpForUs addr ip m) ∧
      (arpGetHwaddr (arpCacheOf addr ms) ip ≠ none → arpGetHwaddr (arpCacheOf addr ms) ip = lastSender ip ms) := by
  refine ⟨(arpTidy_cacheOf addr ms).nodup, fun ip => ?_⟩
  rw [arpGetHwaddr_cacheOf]
  by_cases h : ∃ m ∈ ms, ArpForUs addr ip m
  · rw [if_pos h]
    exact ⟨iff_of_false (Option.isSome_iff_ne_none.mp (lastSender_isSome h)) (not_not.mpr h), fun _ => rfl⟩
  · rw [if_neg h]
    exact ⟨iff_of_true rfl h, fun hne => absurd rfl hne⟩

end LevelIp
