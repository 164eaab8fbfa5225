/-
Hosts that resolve each other's addresses over one wire. Every frame that was ever
sent may arrive at any host, late, twice or never, and the hosts' packets go out in
between; what the hosts learn is true, and an answered request is learnt for good.
-/
import LevelIp.ArpBytes
import LevelIp.SegmentBytes

namespace LevelIp

open Memory
open SkbMem (arpRequest arpReply arpHostOrder)

def RT_LOOPBACK : U8 := 0x01

/-- `struct netdev`, as far as IPv4 output reads it. -/
structure IpNetdev where
  addr : U32
  hwaddr : HwAddr
deriving DecidableEq

/-- `loop`. -/
def loopDev : IpNetdev := { addr := 0x7f000001, hwaddr := Vector.replicate 6 0 }

/-- An IPv4 entry of the route list with its device. -/
structure IpRoute extends Route4 where
  dev : IpNetdev

/-- The test of `route_lookup`. -/
def IpRoute.covers (daddr : U32) (rt : IpRoute) : Bool := daddr &&& rt.netmask == rt.dst &&& rt.netmask

/-- `route_init`, which makes the only IPv4 entries. -/
def routeInit (netdev : IpNetdev) (tapaddr : U32) : List IpRoute :=
  [{ dst := loopDev.addr, gateway := 0, netmask := 0xff000000, flags := RT_LOOPBACK, dev := loopDev },
    { dst := netdev.addr, gateway := 0, netmask := 0xffffff00, flags := RT_HOST, dev := netdev },
    { dst := 0, gateway := tapaddr, netmask := 0, flags := RT_GATEWAY, dev := netdev }]

/-- `route_lookup`: the last entry of the list if none matches. -/
def ipRouteLookup (routes : List IpRoute) (daddr : U32) : Option IpRoute := (routes.find? (·.covers daddr)).or routes.getLast?

/-- A frame on the wire. `hop` is the next hop of an IPv4 packet. -/
structure LanFrame where
  bytes : List U8
  hop : Option U32 := none

structure ArpHost where
  netdev : IpNetdev
  tapaddr : U32
  cache : List ArpCacheEntry := []

/-- `daddr` of `dst_neigh_output`. -/
def IpRoute.nextHop (rt : IpRoute) (daddr : U32) : U32 := if rt.flags &&& RT_GATEWAY ≠ 0 then rt.gateway else daddr

namespace ArpHost

/-- The device and the next hop for an address. -/
def hop (h : ArpHost) (daddr : U32) : Option (IpNetdev × U32) :=
  (ipRouteLookup (routeInit h.netdev h.tapaddr) daddr).map fun rt => (rt.dev, rt.nextHop daddr)

/-- `dst_neigh_output`: the packet, or a request for its next hop. -/
def dstNeighOutput (h : ArpHost) (around : Mem U8) (rt : IpRoute) (s : SkbMem) : LanFrame :=
  let daddr := be32 (read s.mem (ETH_HDR_LEN + 16) 4) 0
  let saddr := be32 (read s.mem (ETH_HDR_LEN + 12) 4) 0
  match arpGetHwaddr h.cache (rt.nextHop daddr) with
  | some dmac => { bytes := (s.netdevTransmit rt.dev.hwaddr dmac ETH_P_IP).bytes, hop := some (rt.nextHop daddr) }
  | none => { bytes := (arpRequest around rt.dev.hwaddr saddr (rt.nextHop daddr)).bytes }

/-- `ip_output` of an skb whose data is where the header ends. -/
def ipOutput (h : ArpHost) (around : Mem U8) (s : SkbMem) (daddr : U32) : List LanFrame :=
  match ipRouteLookup (routeInit h.netdev h.tapaddr) daddr with
  | none => []
  | some rt =>
    let s := { s with data := (ETH_HDR_LEN + IP_HDR_LEN : Nat) }
    [h.dstNeighOutput around rt (s.ipOutput rt.dev.addr daddr)]

/-- `netdev_receive` for ARP, of what `tun_read` read: the cache, and the reply. -/
def receive (h : ArpHost) (around : Mem U8) (frame : List U8) : List ArpCacheEntry × List LanFrame :=
  let m := frame.take BUFLEN
  if be16 m 12 ≠ ETH_P_ARP then (h.cache, [])
  else
    let r := arpRcv h.netdev.addr m h.cache
    (r.1, if r.2 = .arpReply then [{ bytes := (arpReply h.netdev.addr h.netdev.hwaddr (arpHostOrder (EchoReply4.received around m))).bytes }] else [])

end ArpHost

variable {ι : Type*}

/-- The hosts, and all that was ever sent. -/
structure Lan (ι : Type*) where
  host : ι → ArpHost
  wire : List LanFrame := []

/-- A host sends a packet, a frame arrives at a host, or a station that runs
something else sends a frame. -/
inductive LanEvent (ι : Type*)
  | output (i : ι) (around : Mem U8) (s : SkbMem) (daddr : U32)
  | deliver (i : ι) (around : Mem U8) (n : Nat)
  | foreign (m : List U8)

namespace Lan

def step [DecidableEq ι] (l : Lan ι) : LanEvent ι → Lan ι
  | .output i around s daddr => { l with wire := l.wire ++ (l.host i).ipOutput around s daddr }
  | .deliver i around n =>
    match l.wire[n]? with
    | none => l
    | some f =>
      let r := (l.host i).receive around f.bytes
      { host := Function.update l.host i { l.host i with cache := r.1 }, wire := l.wire ++ r.2 }
  | .foreign m => { l with wire := l.wire ++ [{ bytes := m }] }

abbrev run [DecidableEq ι] (l : Lan ι) (es : List (LanEvent ι)) : Lan ι := Machine.run step l es

/-- Nothing is sent and nothing is known. -/
def boot (netdev : ι → IpNetdev) (tapaddr : U32) : Lan ι := { host := fun i => { netdev := netdev i, tapaddr := tapaddr } }

end Lan

/-! ## What is true of the stations -/

variable {netdev : ι → IpNetdev} {l : Lan ι}

/-- A station has the address and the MAC. -/
def Names (netdev : ι → IpNetdev) (ip : U32) (hw : HwAddr) : Prop := ∃ k, (netdev k).addr = ip ∧ (netdev k).hwaddr = hw

/-- An ARP packet that says true things about its sender, or one for the loopback
net, that no station answers. -/
def HonestArp (netdev : ι → IpNetdev) (m : List U8) : Prop :=
  be16 m 12 = ETH_P_ARP → Names netdev (arpData m).sip (arpData m).smac ∨
    (arpData m).sip = loopDev.addr ∧ ∀ k, (netdev k).addr ≠ (arpData m).dip

/-- What is asked of an event: IPv4 can say how long a packet is, and the stations
that run something else do not lie. -/
def LanEvent.Ok (netdev : ι → IpNetdev) : LanEvent ι → Prop
  | output _ _ s _ => s.len.toNat ≤ 65515
  | deliver _ _ _ => True
  | foreign m => HonestArp netdev m

/-- **Sound**: caches, ARP packets and the destinations of IPv4 packets name the
stations that have the addresses. -/
structure Lan.Sound (netdev : ι → IpNetdev) (l : Lan ι) : Prop where
  dev : ∀ k, (l.host k).netdev = netdev k
  tidy : ∀ k, ArpTidy (l.host k).cache
  cache : ∀ k ip hw, arpGetHwaddr (l.host k).cache ip = some hw → Names netdev ip hw
  arp : ∀ f ∈ l.wire, HonestArp netdev f.bytes
  hop : ∀ f ∈ l.wire, ∀ ip, f.hop = some ip → Names netdev ip (hwAt f.bytes 0)

/-! ## Output -/

section output
variable {h : ArpHost} {around : Mem U8} {s : SkbMem} {daddr saddr : U32} {rt : IpRoute}

/-- The addresses in a header. -/
theorem holds_ipv4Addrs {m : Mem U8} {a : Int} {len id : U16} {proto : U8} {csum : U16}
    (h : Holds m a (EchoReply4.ipv4Header len id proto saddr daddr csum)) :
    Holds m (a + 12) (be32Bytes saddr) ∧ Holds m (a + 16) (be32Bytes daddr) := by
  obtain ⟨hrest, hdaddr⟩ := holds_append.mp h
  exact ⟨(holds_append.mp hrest).2, hdaddr⟩

/-- The packet when it comes to `dst_neigh_output`. -/
theorem read_ipOutput (saddr daddr : U32) (hdata : s.data = 34) :
    read (s.ipOutput saddr daddr).mem 26 4 = be32Bytes saddr ∧ read (s.ipOutput saddr daddr).mem 30 4 = be32Bytes daddr ∧
      (s.ipOutput saddr daddr).data = 14 ∧ (s.ipOutput saddr daddr).len = s.len + 20 := by
  have hpush : s.data - (BitVec.ofNat 32 IP_HDR_LEN).toNat = 14 := by
    rw [hdata]
    rfl
  unfold SkbMem.ipOutput
  dsimp only [SkbMem.skbPush]
  rw [hpush]
  generalize s.mem ((ETH_HDR_LEN : Nat) + 5) ++ s.mem ((ETH_HDR_LEN : Nat) + 4) = id
  -- no checksum is among the addresses
  have hbefore : ∀ (t : SkbMem) (a : Int) (n : Nat) (b : Int) (c : U16), a + n ≤ b → read (t.store b (le16Bytes c)).mem a n = read t.mem a n :=
    fun t a n b c h => read_write_outside (.inl h)
  have hbehind : ∀ (t : SkbMem) (a : Int) (n : Nat) (b : Int) (c : U16), b + 2 ≤ a → read (t.store b (le16Bytes c)).mem a n = read t.mem a n :=
    fun t a n b c h => read_write_outside (.inr h)
  generalize ht : SkbMem.store _ (ETH_HDR_LEN : Nat) (EchoReply4.ipv4Header _ id _ saddr daddr 0) = t
  have hheader : ∃ len proto, Holds t.mem 14 (EchoReply4.ipv4Header len id proto saddr daddr 0) := by
    rw [← ht]
    exact ⟨_, _, holds_write _ _ _⟩
  obtain ⟨len, proto, hheader⟩ := hheader
  obtain ⟨hsaddr, hdaddr⟩ := holds_ipv4Addrs hheader
  have hs : read t.mem 26 4 = be32Bytes saddr := hsaddr
  have hd : read t.mem 30 4 = be32Bytes daddr := hdaddr
  have htdata : t.data = 14 := by rw [← ht]; rfl
  have htlen : t.len = s.len + 20 := by rw [← ht]; rfl
  have hfourteen : (ETH_HDR_LEN : Int) = 14 := rfl
  have htwenty : (IP_HDR_LEN : Int) = 20 := rfl
  rw [hbehind _ _ _ _ _ (by omega), hbehind _ _ _ _ _ (by omega)]
  split
  · rw [hbefore _ _ _ _ _ (by omega), hbefore _ _ _ _ _ (by omega)]
    exact ⟨hs, hd, htdata, htlen⟩
  · split
    · rw [hbefore _ _ _ _ _ (by omega), hbefore _ _ _ _ _ (by omega)]
      exact ⟨hs, hd, htdata, htlen⟩
    · exact ⟨hs, hd, htdata, htlen⟩

/-- The routes of a host: over `loop` to the loopback net and nowhere else. -/
theorem ipRouteLookup_routeInit (dev : IpNetdev) (tapaddr daddr : U32) : ∃ rt, ipRouteLookup (routeInit dev tapaddr) daddr = some rt ∧
    (rt.dev = loopDev ∧ daddr &&& 0xff000000 = 0x7f000000 ∧ rt.nextHop daddr = daddr ∨ rt.dev = dev) := by
  have hnet : loopDev.addr &&& 0xff000000 = 0x7f000000 := by decide
  have hlast : ∀ rt : IpRoute, rt.netmask = 0 → rt.covers daddr = true := fun rt hm => by
    unfold IpRoute.covers
    rw [hm]
    simp
  unfold ipRouteLookup routeInit
  rw [List.find?_cons]
  split
  next hc =>
    refine ⟨_, rfl, .inl ⟨rfl, ?_, rfl⟩⟩
    rw [← hnet]
    simpa [IpRoute.covers] using hc
  next =>
    rw [List.find?_cons]
    split
    next => exact ⟨_, rfl, .inr rfl⟩
    next =>
      rw [List.find?_cons, hlast _ rfl]
      exact ⟨_, rfl, .inr rfl⟩

/-- The packet that `ip_output` makes of an skb. -/
def ArpHost.packet (saddr daddr : U32) (s : SkbMem) : SkbMem := { s with data := (ETH_HDR_LEN + IP_HDR_LEN : Nat) }.ipOutput saddr daddr

/-- **What a host sends** for a packet: the packet itself to the MAC it knows, or a
request for its next hop; over `loop` for the loopback net only. -/
theorem ArpHost.ipOutput_cases (h : ArpHost) (around : Mem U8) (s : SkbMem) (daddr : U32) : ∃ dev hop, h.hop daddr = some (dev, hop) ∧
    (dev = loopDev ∧ hop &&& 0xff000000 = 0x7f000000 ∨ dev = h.netdev) ∧
      ((∃ dmac, arpGetHwaddr h.cache hop = some dmac ∧
          h.ipOutput around s daddr = [{ bytes := ((packet dev.addr daddr s).netdevTransmit dev.hwaddr dmac ETH_P_IP).bytes, hop := some hop }]) ∨
        arpGetHwaddr h.cache hop = none ∧ h.ipOutput around s daddr = [{ bytes := (arpRequest around dev.hwaddr dev.addr hop).bytes }]) := by
  obtain ⟨rt, hrt, hdev⟩ := ipRouteLookup_routeInit h.netdev h.tapaddr daddr
  refine ⟨rt.dev, rt.nextHop daddr, by rw [hop, hrt]; rfl, hdev.imp_left fun hl => ⟨hl.1, by rw [hl.2.2]; exact hl.2.1⟩, ?_⟩
  obtain ⟨hsaddr, hdaddr, -, -⟩ := read_ipOutput rt.dev.addr daddr (s := { s with data := (ETH_HDR_LEN + IP_HDR_LEN : Nat) }) rfl
  have hs : be32 (read (packet rt.dev.addr daddr s).mem ((ETH_HDR_LEN : Nat) + 12) 4) 0 = rt.dev.addr :=
    (congrArg (be32 · 0) hsaddr).trans (be32_toBe32 rt.dev.addr [])
  have hd : be32 (read (packet rt.dev.addr daddr s).mem ((ETH_HDR_LEN : Nat) + 16) 4) 0 = daddr :=
    (congrArg (be32 · 0) hdaddr).trans (be32_toBe32 daddr [])
  have hout : h.ipOutput around s daddr = [h.dstNeighOutput around rt (packet rt.dev.addr daddr s)] := by
    unfold ArpHost.ipOutput
    rw [hrt]
    rfl
  rw [hout]
  unfold ArpHost.dstNeighOutput
  rw [hs, hd]
  dsimp only
  cases arpGetHwaddr h.cache (rt.nextHop daddr) with
  | some dmac => exact .inl ⟨dmac, rfl, rfl⟩
  | none => exact .inr ⟨rfl, rfl⟩

/-- The frame of a packet is no ARP. -/
theorem ipFrame (saddr daddr : U32) (hwaddr dmac : HwAddr) (hs : s.len.toNat ≤ 65515) :
    be16 ((ArpHost.packet saddr daddr s).netdevTransmit hwaddr dmac ETH_P_IP).bytes 12 = ETH_P_IP ∧
      hwAt ((ArpHost.packet saddr daddr s).netdevTransmit hwaddr dmac ETH_P_IP).bytes 0 = dmac := by
  have hlen : (ArpHost.packet saddr daddr s).len = s.len + 20 :=
    (read_ipOutput saddr daddr (s := { s with data := (ETH_HDR_LEN + IP_HDR_LEN : Nat) }) rfl).2.2.2
  have hnat : (ArpHost.packet saddr daddr s).len.toNat + 14 < 2 ^ 32 := by
    rw [hlen, BitVec.toNat_add]
    have htwenty : (20 : U32).toNat = 20 := rfl
    omega
  rw [SkbMem.bytes_netdevTransmit _ _ _ _ hnat]
  refine ⟨be16_ethHdr _ _ _ _, Vector.ext fun k hk => ?_⟩
  rw [hwAt, Vector.getElem_ofFn]
  simp [ethHdr, hk, List.getElem?_append]

end output

/-! ## What is read of a frame -/

section take
variable (m : List U8)

theorem getD_take {n i : Nat} (hi : i < n) : (m.take n).getD i 0 = m.getD i 0 := by
  simp [hi]

theorem be16_take {i : Nat} (hi : i + 1 < BUFLEN) : be16 (m.take BUFLEN) i = be16 m i := by
  rw [be16, getD_take m (by omega), getD_take m hi, be16]

theorem be32_take {i : Nat} (hi : i + 3 < BUFLEN) : be32 (m.take BUFLEN) i = be32 m i := by
  have h : ∀ k < 4, (m.take BUFLEN).getD (i + k) 0 = m.getD (i + k) 0 := fun k hk => getD_take m (by omega)
  simp only [be32]
  rw [h 0 (by decide), h 1 (by decide), h 2 (by decide), h 3 (by decide)]

theorem arpHdr_take : arpHdr (m.take BUFLEN) = arpHdr m := by
  unfold arpHdr
  rw [be16_take m (by decide), be16_take m (by decide), be16_take m (by decide)]

theorem arpData_take : arpData (m.take BUFLEN) = arpData m := by
  have hsmac : hwAt (m.take BUFLEN) (ETH_HDR_LEN + 8) = hwAt m (ETH_HDR_LEN + 8) := by
    refine Vector.ext fun k hk => ?_
    rw [hwAt, hwAt, Vector.getElem_ofFn, Vector.getElem_ofFn]
    refine getD_take m ?_
    simp only [ETH_HDR_LEN, BUFLEN]
    omega
  unfold arpData
  rw [hsmac, be32_take m (by decide), be32_take m (by decide)]

end take

/-! ## One step -/

namespace Lan.Sound

/-- No station is in the loopback net. -/
theorem not_loop (hnet : ∀ k, (netdev k).addr &&& 0xff000000 ≠ 0x7f000000) {ip : U32} {hw : HwAddr} (h : Names netdev ip hw) :
    ip &&& 0xff000000 ≠ 0x7f000000 := by
  obtain ⟨k, rfl, -⟩ := h
  exact hnet k

/-- **A packet is received**: what is found after it names stations. -/
theorem received (h : Sound netdev l) (hnet : ∀ k, (netdev k).addr &&& 0xff000000 ≠ 0x7f000000) {m : List U8} (hm : HonestArp netdev m)
    (htype : be16 m 12 = ETH_P_ARP) (i : ι) {ip : U32} {hw : HwAddr}
    (hfound : arpGetHwaddr (arpRcv (l.host i).netdev.addr m (l.host i).cache).1 ip = some hw) : Names netdev ip hw := by
  rw [(h.tidy i).getHwaddr_arpRcv] at hfound
  split at hfound
  next hfrom =>
    obtain ⟨⟨-, rfl⟩, hknown⟩ := hfrom
    obtain rfl := Option.some.inj hfound
    rcases hm htype with hnames | ⟨hloop, hnone⟩
    · exact hnames
    · rcases hknown with hknown | hdip
      · obtain ⟨hw, hw'⟩ := Option.isSome_iff_exists.mp hknown
        refine absurd (by rw [hloop]; decide) (not_loop hnet (h.cache i _ hw hw'))
      · exact absurd (by rw [hdip, h.dev i]) (hnone i)
  next => exact h.cache i ip hw hfound

/-- Frames are put on the wire. -/
theorem sends (h : Sound netdev l) {fs : List LanFrame}
    (hfs : ∀ f ∈ fs, HonestArp netdev f.bytes ∧ ∀ ip, f.hop = some ip → Names netdev ip (hwAt f.bytes 0)) :
    Sound netdev { l with wire := l.wire ++ fs } where
  dev := h.dev
  tidy := h.tidy
  cache := h.cache
  arp f hf := (List.mem_append.mp hf).elim (h.arp f) fun hf => (hfs f hf).1
  hop f hf := (List.mem_append.mp hf).elim (h.hop f) fun hf => (hfs f hf).2

/-- What a host sends is true. -/
theorem output (h : Sound netdev l) (hnet : ∀ k, (netdev k).addr &&& 0xff000000 ≠ 0x7f000000) (i : ι) (around : Mem U8) {s : SkbMem}
    (hs : s.len.toNat ≤ 65515) (daddr : U32) : ∀ f ∈ (l.host i).ipOutput around s daddr,
      HonestArp netdev f.bytes ∧ ∀ ip, f.hop = some ip → Names netdev ip (hwAt f.bytes 0) := by
  obtain ⟨dev, hop, -, hdev, hcase⟩ := (l.host i).ipOutput_cases around s daddr
  intro f hf
  rcases hcase with ⟨dmac, hfound, hout⟩ | ⟨-, hout⟩
  · obtain ⟨htype, hdst⟩ := ipFrame dev.addr daddr dev.hwaddr dmac hs
    rw [hout, List.mem_singleton] at hf
    subst hf
    refine ⟨fun harp => ?_, fun ip hip => ?_⟩
    · rw [htype] at harp
      exact absurd harp (by decide)
    · rw [← Option.some.inj hip, hdst]
      exact h.cache i hop dmac hfound
  · obtain ⟨-, -, hdata⟩ := arpRequest_frame around dev.hwaddr dev.addr hop
    rw [hout, List.mem_singleton] at hf
    subst hf
    refine ⟨fun _ => ?_, fun ip hip => by cases hip⟩
    dsimp only
    rw [hdata]
    rcases hdev with ⟨rfl, hloop⟩ | rfl
    · exact .inr ⟨rfl, fun k hk => hnet k (by rw [hk]; exact hloop)⟩
    · exact .inl ⟨i, by rw [h.dev i], by rw [h.dev i]⟩

variable [DecidableEq ι]

/-- A host has another cache. -/
theorem learns (h : Sound netdev l) (i : ι) {cache : List ArpCacheEntry} (ht : ArpTidy cache)
    (hc : ∀ ip hw, arpGetHwaddr cache ip = some hw → Names netdev ip hw) :
    Sound netdev { l with host := Function.update l.host i { l.host i with cache := cache } } := by
  have hhost : ∀ k, Function.update l.host i { l.host i with cache := cache } k =
      if k = i then { l.host i with cache := cache } else l.host k := fun k => Function.update_apply _ _ _ _
  refine ⟨fun k => ?_, fun k => ?_, fun k => ?_, h.arp, h.hop⟩
  · show (Function.update l.host i { l.host i with cache := cache } k).netdev = netdev k
    rw [hhost]
    split
    next hk => exact hk ▸ h.dev i
    next => exact h.dev k
  · show ArpTidy (Function.update l.host i { l.host i with cache := cache } k).cache
    rw [hhost]
    split
    · exact ht
    · exact h.tidy k
  · show ∀ ip hw, arpGetHwaddr (Function.update l.host i { l.host i with cache := cache } k).cache ip = some hw → _
    rw [hhost]
    split
    · exact hc
    · exact h.cache k

/-- **One step** keeps the LAN sound. -/
theorem step (h : Sound netdev l) (hnet : ∀ k, (netdev k).addr &&& 0xff000000 ≠ 0x7f000000) {e : LanEvent ι} (he : e.Ok netdev) :
    Sound netdev (l.step e) := by
  cases e with
  | output i around s daddr => exact h.sends (h.output hnet i around he daddr)
  | foreign m =>
    refine h.sends fun f hf => ?_
    rw [List.mem_singleton.mp hf]
    exact ⟨he, fun ip hip => by cases hip⟩
  | deliver i around n =>
    unfold Lan.step
    dsimp only
    split
    next => exact h
    next f hf =>
      have hhonest := h.arp f (List.mem_of_getElem? hf)
      have hshort : (f.bytes.take BUFLEN).length ≤ BUFLEN := List.length_take_le _ _
      have hm : HonestArp netdev (f.bytes.take BUFLEN) := by
        unfold HonestArp
        rw [be16_take f.bytes (by decide), arpData_take]
        exact hhonest
      unfold ArpHost.receive
      generalize f.bytes.take BUFLEN = m at hm hshort
      dsimp only
      split
      next =>
        refine Sound.sends (h.learns i (h.tidy i) (h.cache i)) fun f hf => absurd hf List.not_mem_nil
      next htype =>
        refine Sound.sends (h.learns i ((h.tidy i).arpRcv _ _) fun ip hw => h.received hnet hm (not_not.mp htype) i) fun f hf => ?_
        split at hf
        next =>
          obtain ⟨-, -, hdata⟩ := arpReply_frame around hshort (l.host i).netdev.addr (l.host i).netdev.hwaddr
          rw [List.mem_singleton.mp hf]
          refine ⟨fun _ => .inl ?_, fun ip hip => by cases hip⟩
          rw [hdata]
          exact ⟨i, by rw [h.dev i], by rw [h.dev i]⟩
        next => cases hf

end Lan.Sound

namespace Lan

theorem sound_boot (netdev : ι → IpNetdev) (tapaddr : U32) : Sound netdev (boot netdev tapaddr) where
  dev _ := rfl
  tidy _ := ArpTidy.nil
  cache _ _ _ h := by cases h
  arp _ h := by cases h
  hop _ h := by cases h

/-- **Run lemma**. -/
theorem sound_run [DecidableEq ι] (hnet : ∀ k, (netdev k).addr &&& 0xff000000 ≠ 0x7f000000) (tapaddr : U32) {es : List (LanEvent ι)}
    (hes : ∀ e ∈ es, e.Ok netdev) : Sound netdev ((boot netdev tapaddr).run es) :=
  Machine.invariant_of_forall (fun _ _ he h => h.step hnet he) hes (sound_boot netdev tapaddr)

/-- Two hosts, 10.0.0.4 and 10.0.0.5. -/
def duo (i : Fin 2) : IpNetdev := { addr := 0x0a000004 + BitVec.ofNat 32 i, hwaddr := Vector.replicate 6 (1 + BitVec.ofNat 8 i) }

/-- Six bytes to be sent. -/
def duoSkb : SkbMem := { mem := fun _ => 0x55, tail := 40, data := 34, len := 6 }

def duoOutput : LanEvent (Fin 2) := .output 0 (fun _ => 7) duoSkb 0x0a000005

theorem sound_run_duo : Sound duo ((boot duo 0x0a000005).run [duoOutput, .deliver 1 (fun _ => 7) 0, .deliver 0 (fun _ => 7) 1, duoOutput]) :=
  sound_run (by decide) 0x0a000005 (by
    simp only [List.mem_cons, List.not_mem_nil, or_false]
    rintro e (rfl | rfl | rfl | rfl)
    · show (6 : U32).toNat ≤ 65515
      decide
    · trivial
    · trivial
    · show (6 : U32).toNat ≤ 65515
      decide)

/-! ## An answered request -/

/-- The frame is an ARP packet of the device `dev` for `dip`. -/
def IsArp (opcode : U16) (dev : IpNetdev) (dip : U32) (m : List U8) : Prop :=
  be16 m 12 = ETH_P_ARP ∧ arpHdr m = { hwtype := ARP_ETHERNET, protype := ARP_IPV4, opcode := opcode } ∧
    arpData m = { smac := dev.hwaddr, sip := dev.addr, dip := dip }

/-- Host `i` finds a MAC for `ip`. -/
def Knows (l : Lan ι) (i : ι) (ip : U32) : Prop := (arpGetHwaddr (l.host i).cache ip).isSome

variable [DecidableEq ι] {i j : ι} {ip : U32}

/-- The wire only grows. -/
theorem wire_step (l : Lan ι) (e : LanEvent ι) : l.wire <+: (l.step e).wire := by
  cases e with
  | output i around s daddr => exact List.prefix_append _ _
  | foreign m => exact List.prefix_append _ _
  | deliver i around n =>
    unfold step
    dsimp only
    split
    · exact List.prefix_refl _
    · exact List.prefix_append _ _

theorem wire_run (l : Lan ι) (es : List (LanEvent ι)) : l.wire <+: (l.run es).wire := by
  induction es generalizing l with
  | nil => exact List.prefix_refl _
  | cons e es ih => exact (wire_step l e).trans (ih (l.step e))

/-- A frame keeps its place. -/
theorem sent_stays {wire : List LanFrame} {f : LanFrame} (h : l.wire = wire ++ [f]) (es : List (LanEvent ι)) :
    (l.run es).wire[wire.length]? = some f := by
  obtain ⟨rest, hrest⟩ := wire_run l es
  rw [← hrest, h, List.append_assoc, List.getElem?_append_right (Nat.le_refl _), Nat.sub_self]
  rfl

/-- What a host that receives a frame has then. -/
theorem host_deliver {n : Nat} {f : LanFrame} (hf : l.wire[n]? = some f) (i : ι) (around : Mem U8) :
    ((l.step (.deliver i around n)).host i).cache = ((l.host i).receive around f.bytes).1 ∧
      (∀ k, k ≠ i → (l.step (.deliver i around n)).host k = l.host k) ∧
        (l.step (.deliver i around n)).wire = l.wire ++ ((l.host i).receive around f.bytes).2 := by
  unfold step
  dsimp only
  rw [hf]
  refine ⟨?_, fun k hk => Function.update_of_ne hk _ _, rfl⟩
  show (Function.update l.host i _ i).cache = _
  rw [Function.update_self]

/-- **What is known stays known.** -/
theorem Knows.step (h : Knows l i ip) (hs : Sound netdev l) (e : LanEvent ι) : Knows (l.step e) i ip := by
  cases e with
  | output j around s daddr => exact h
  | foreign m => exact h
  | deliver j around n =>
    cases hf : l.wire[n]? with
    | none =>
      unfold Lan.step
      dsimp only
      rw [hf]
      exact h
    | some f =>
      obtain ⟨hcache, hother, -⟩ := host_deliver hf j around
      unfold Knows at h ⊢
      by_cases hij : i = j
      · subst hij
        rw [hcache]
        unfold ArpHost.receive
        dsimp only
        split
        · exact h
        · rw [(hs.tidy i).getHwaddr_arpRcv]
          split
          · rfl
          · exact h
      · rw [hother i hij]
        exact h

theorem Knows.run (h : Knows l i ip) (hs : Sound netdev l) (hnet : ∀ k, (netdev k).addr &&& 0xff000000 ≠ 0x7f000000)
    {es : List (LanEvent ι)} (hes : ∀ e ∈ es, e.Ok netdev) : Knows (l.run es) i ip := by
  have hstep : ∀ (l : Lan ι) (e : LanEvent ι), e.Ok netdev → Knows l i ip ∧ Sound netdev l → Knows (l.step e) i ip ∧ Sound netdev (l.step e) :=
    fun l e he h => ⟨h.1.step h.2 e, h.2.step hnet he⟩
  exact (Machine.invariant_of_forall hstep hes ⟨h, hs⟩).1

omit [DecidableEq ι] in
/-- **A host that does not know** its next hop asks for it. -/
theorem asks (around : Mem U8) (s : SkbMem) {daddr : U32} (hhop : (l.host i).hop daddr = some (netdev i, ip))
    (hmiss : ¬Knows l i ip) : ∃ f, (l.host i).ipOutput around s daddr = [f] ∧ IsArp ARP_REQUEST (netdev i) ip f.bytes := by
  obtain ⟨dev, hop, heq, -, hcase⟩ := (l.host i).ipOutput_cases around s daddr
  obtain ⟨rfl, rfl⟩ := Prod.mk.inj (Option.some.inj (hhop.symm.trans heq))
  rcases hcase with ⟨dmac, hfound, -⟩ | ⟨-, hout⟩
  · exact absurd (by rw [Knows, hfound]; rfl) hmiss
  · obtain ⟨⟨-, -, htype⟩, hhdr, hdata⟩ := arpRequest_frame around (netdev i).hwaddr (netdev i).addr ip
    exact ⟨_, hout, htype, hhdr, hdata⟩

/-- `arp_rcv` answers a request for the address of its device. -/
theorem arpRcv_replies {addr : U32} {m : List U8} (hhdr : arpHdr m = { hwtype := ARP_ETHERNET, protype := ARP_IPV4, opcode := ARP_REQUEST })
    (hdip : (arpData m).dip = addr) (cache : List ArpCacheEntry) : (arpRcv addr m cache).2 = .arpReply := by
  unfold arpRcv
  simp [hhdr, hdip]

/-- **A request is answered** by the host it is for. -/
theorem answers (hs : Sound netdev l) {n : Nat} {f : LanFrame} (hf : l.wire[n]? = some f) {dev : IpNetdev}
    (hreq : IsArp ARP_REQUEST dev (netdev j).addr f.bytes) (around : Mem U8) :
    ∃ r, (l.step (.deliver j around n)).wire = l.wire ++ [r] ∧ IsArp ARP_REPLY (netdev j) dev.addr r.bytes := by
  obtain ⟨htype, hhdr, hdata⟩ := hreq
  have hshort : (f.bytes.take BUFLEN).length ≤ BUFLEN := List.length_take_le _ _
  obtain ⟨⟨-, -, rtype⟩, rhdr, rdata⟩ := arpReply_frame around hshort (l.host j).netdev.addr (l.host j).netdev.hwaddr
  rw [arpHdr_take, hhdr] at rhdr
  rw [arpData_take, hdata] at rdata
  rw [← hs.dev j]
  refine ⟨{ bytes := (arpReply (l.host j).netdev.addr (l.host j).netdev.hwaddr
    (arpHostOrder (EchoReply4.received around (f.bytes.take BUFLEN)))).bytes }, ?_, rtype, rhdr, rdata⟩
  rw [(host_deliver hf j around).2.2]
  unfold ArpHost.receive
  dsimp only
  rw [be16_take _ (by decide), htype, if_neg (by decide)]
  have hdip : (arpData (f.bytes.take BUFLEN)).dip = (l.host j).netdev.addr := by rw [arpData_take, hdata, hs.dev j]
  rw [if_pos (arpRcv_replies ((arpHdr_take f.bytes).trans hhdr) hdip _)]

/-- **A reply is learnt** by the host it is for. -/
theorem learns (hs : Sound netdev l) {n : Nat} {f : LanFrame} (hf : l.wire[n]? = some f) {dev : IpNetdev} {opcode : U16}
    (hreply : IsArp opcode dev (netdev i).addr f.bytes) (around : Mem U8) : Knows (l.step (.deliver i around n)) i dev.addr := by
  obtain ⟨htype, hhdr, hdata⟩ := hreply
  unfold Knows
  rw [(host_deliver hf i around).1]
  unfold ArpHost.receive
  dsimp only
  rw [be16_take _ (by decide), htype, if_neg (by decide), (hs.tidy i).getHwaddr_arpRcv]
  have hfrom : ArpFrom dev.addr (f.bytes.take BUFLEN) := by
    unfold ArpFrom
    rw [arpHdr_take, arpData_take, hhdr, hdata]
    exact ⟨⟨rfl, rfl⟩, rfl⟩
  rw [if_pos ⟨hfrom, .inr (by rw [arpData_take, hdata, hs.dev i])⟩]
  rfl

/-- **A resolution that completes**: a host sends a packet for a next hop, what it put
on the wire reaches the owner of that address, and what the owner then put there
comes back, whatever else happens before, in between and after. From then on
packets for that next hop go out at once, to the owner's MAC. -/
theorem resolves (tapaddr : U32) (hnet : ∀ k, (netdev k).addr &&& 0xff000000 ≠ 0x7f000000)
    (hdistinct : ∀ k k', (netdev k).addr = (netdev k').addr → k = k') {es₁ es₂ es₃ es₄ : List (LanEvent ι)} {a₁ a₂ a₃ : Mem U8}
    {s : SkbMem} {daddr : U32} {l₁ l₂ l₃ l₄ : Lan ι} (h₁ : l₁ = (boot netdev tapaddr).run es₁)
    (h₂ : l₂ = (l₁.step (.output i a₁ s daddr)).run es₂) (h₃ : l₃ = (l₂.step (.deliver j a₂ l₁.wire.length)).run es₃)
    (h₄ : l₄ = (l₃.step (.deliver i a₃ l₂.wire.length)).run es₄)
    (hok : ∀ e ∈ es₁ ++ es₂ ++ es₃ ++ es₄, e.Ok netdev) (hs : s.len.toNat ≤ 65515)
    (hhop : (l₁.host i).hop daddr = some (netdev i, (netdev j).addr)) {a : Mem U8} {s' : SkbMem} {daddr' : U32}
    (hhop' : (l₄.host i).hop daddr' = some (netdev i, (netdev j).addr)) :
    (l₄.host i).ipOutput a s' daddr' =
      [{ bytes := ((ArpHost.packet (netdev i).addr daddr' s').netdevTransmit (netdev i).hwaddr (netdev j).hwaddr ETH_P_IP).bytes,
         hop := some (netdev j).addr }] := by
  have hok₁ : ∀ e ∈ es₁, e.Ok netdev := fun e he => hok e (by simp [he])
  have hok₂ : ∀ e ∈ es₂, e.Ok netdev := fun e he => hok e (by simp [he])
  have hok₃ : ∀ e ∈ es₃, e.Ok netdev := fun e he => hok e (by simp [he])
  have hok₄ : ∀ e ∈ es₄, e.Ok netdev := fun e he => hok e (by simp [he])
  have hrun : ∀ {l : Lan ι} {es : List (LanEvent ι)}, Sound netdev l → (∀ e ∈ es, e.Ok netdev) → Sound netdev (l.run es) := fun h hes =>
    Machine.invariant_of_forall (fun _ _ he h => h.step hnet he) hes h
  have hs₁ : Sound netdev l₁ := h₁ ▸ sound_run hnet tapaddr hok₁
  have hsout : Sound netdev (l₁.step (.output i a₁ s daddr)) := hs₁.step hnet hs
  have hs₂ : Sound netdev l₂ := h₂ ▸ hrun hsout hok₂
  have hsreq : Sound netdev (l₂.step (.deliver j a₂ l₁.wire.length)) := hs₂.step hnet trivial
  have hs₃ : Sound netdev l₃ := h₃ ▸ hrun hsreq hok₃
  have hsreply : Sound netdev (l₃.step (.deliver i a₃ l₂.wire.length)) := hs₃.step hnet trivial
  have hs₄ : Sound netdev l₄ := h₄ ▸ hrun hsreply hok₄
  -- it was known before, or the request and the reply are on the wire
  have hknows : Knows l₄ i (netdev j).addr := by
    by_cases hknown : Knows l₁ i (netdev j).addr
    · have hk₂ : Knows l₂ i (netdev j).addr := h₂ ▸ (hknown.step hs₁ _).run hsout hnet hok₂
      have hk₃ : Knows l₃ i (netdev j).addr := h₃ ▸ (hk₂.step hs₂ _).run hsreq hnet hok₃
      exact h₄ ▸ (hk₃.step hs₃ _).run hsreply hnet hok₄
    · obtain ⟨f, hout, hreq⟩ := asks a₁ s hhop hknown
      have hwire : (l₁.step (.output i a₁ s daddr)).wire = l₁.wire ++ [f] := congrArg (l₁.wire ++ ·) hout
      have hf : l₂.wire[l₁.wire.length]? = some f := h₂ ▸ sent_stays hwire es₂
      obtain ⟨r, hwire, hreply⟩ := answers hs₂ hf hreq a₂
      have hr : l₃.wire[l₂.wire.length]? = some r := h₃ ▸ sent_stays hwire es₃
      exact h₄ ▸ (learns hs₃ hr hreply a₃).run hsreply hnet hok₄
  obtain ⟨hw, hfound⟩ := Option.isSome_iff_exists.mp hknows
  obtain ⟨k, hk, rfl⟩ := hs₄.cache i _ hw hfound
  obtain rfl := hdistinct k j hk
  obtain ⟨dev, hop, heq, -, hcase⟩ := (l₄.host i).ipOutput_cases a s' daddr'
  obtain ⟨rfl, rfl⟩ := Prod.mk.inj (Option.some.inj (hhop'.symm.trans heq))
  rcases hcase with ⟨dmac, hdmac, hout⟩ | ⟨hmiss, -⟩
  · rw [hfound] at hdmac
    obtain rfl := Option.some.inj hdmac
    exact hout
  · rw [hfound] at hmiss
    cases hmiss

/-- The first host asks, the second answers. -/
def duoAsked : Lan (Fin 2) := (boot duo 0x0a000005).step duoOutput
def duoAnswered : Lan (Fin 2) := duoAsked.step (.deliver 1 (fun _ => 7) (boot duo 0x0a000005).wire.length)
def duoResolved : Lan (Fin 2) := duoAnswered.step (.deliver 0 (fun _ => 7) duoAsked.wire.length)

theorem resolves_duo : (duoResolved.host 0).ipOutput (fun _ => 7) duoSkb 0x0a000005 =
    [{ bytes := ((ArpHost.packet (duo 0).addr 0x0a000005 duoSkb).netdevTransmit (duo 0).hwaddr (duo 1).hwaddr ETH_P_IP).bytes,
       hop := some (duo 1).addr }] := by
  have hhop : ((boot duo 0x0a000005).host 0).hop 0x0a000005 = some (duo 0, (duo 1).addr) := by decide +kernel
  have hhop' : (duoResolved.host 0).hop 0x0a000005 = some (duo 0, (duo 1).addr) := by decide +kernel
  have h₁ : boot duo 0x0a000005 = (boot duo 0x0a000005).run [] := rfl
  have h₂ : duoAsked = ((boot duo 0x0a000005).step (.output 0 (fun _ => 7) duoSkb 0x0a000005)).run [] := rfl
  have h₃ : duoAnswered = (duoAsked.step (.deliver 1 (fun _ => 7) (boot duo 0x0a000005).wire.length)).run [] := rfl
  have h₄ : duoResolved = (duoAnswered.step (.deliver 0 (fun _ => 7) duoAsked.wire.length)).run [] := rfl
  exact resolves 0x0a000005 (by decide) (by decide) h₁ h₂ h₃ h₄ (fun e he => absurd he List.not_mem_nil) (by decide) hhop hhop'

end Lan

end LevelIp
