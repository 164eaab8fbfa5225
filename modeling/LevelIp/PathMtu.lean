/-
Path MTU discovery for IPv6: a Packet Too Big message sets the MTU of a route
and lowers the MSS of sockets. The MTU of the message is cut to 16 bits;
`route6_update_pmtu` raises it to 1280 and stores it whatever the route had,
`socket_adjust_pmtu6` takes 60 from it as it is. The IPv6 side of the host and
its sockets are one machine here.
-/
import LevelIp.Packets
import LevelIp.HostMoves
import LevelIp.CongInvariant
import LevelIp.Advertisements

namespace LevelIp

/-! ## Routes -/

/-- `mtu` of the device, which is also its `mtu6`. -/
def netdevMtu : U32 := 1500

namespace Host6

/-- `pmtu` of `tcp_v6_connect`. -/
def pathMtu (h : Host6) (daddr : In6Addr) : U16 :=
  match h.route6Lookup daddr with
  | some rt => if 0 < rt.pmtu then rt.pmtu else netdevMtu.setWidth 16
  | none => 1500

/-- `route6_update_pmtu`. The entry `route6_lookup` returns is the first that is
equal to it. -/
def route6UpdatePmtu (h : Host6) (daddr : In6Addr) (mtu : U16) : Host6 :=
  let mtu := if mtu < 1280 then 1280 else mtu
  match h.route6Lookup daddr with
  | some rt => { h with routes := h.routes.modify (h.routes.findIdx fun r => r = rt) fun r => { r with pmtu := mtu } }
  | none => h

end Host6

/-- `rt` is the first of the longest matches: nothing as long stands before it,
nothing longer behind. -/
structure Route6.Best (daddr : In6Addr) (rt : Route6) (before after : List Route6) : Prop where
  covers : rt.covers daddr
  before : ∀ r ∈ before, r.covers daddr → r.prefixLen < rt.prefixLen
  after : ∀ r ∈ after, r.covers daddr → r.prefixLen ≤ rt.prefixLen

namespace Route6

variable {daddr : In6Addr} {rt : Route6} {before after : List Route6}

theorem better_covers {r : Route6} (h : r.covers daddr) (best : Option Route6) :
    route6Better daddr best r = if (best.all fun b => b.prefixLen < r.prefixLen) = true then some r else best := by
  unfold route6Better
  rw [if_pos h]
  cases best <;> simp

theorem better_not {r : Route6} (h : ¬ r.covers daddr) (best : Option Route6) : route6Better daddr best r = best := if_neg h

/-- Behind a longest match the lookup keeps it. -/
theorem foldl_kept (h : ∀ r ∈ after, r.covers daddr → r.prefixLen ≤ rt.prefixLen) :
    after.foldl (route6Better daddr) (some rt) = some rt := by
  induction after with
  | nil => rfl
  | cons r after ih =>
    have hr : route6Better daddr (some rt) r = some rt := by
      by_cases hc : r.covers daddr
      · have := h r List.mem_cons_self hc
        rw [better_covers hc, if_neg]
        simpa using this
      · exact better_not hc _
    rw [List.foldl_cons, hr]
    exact ih fun x hx => h x (List.mem_cons_of_mem _ hx)

/-- Before it the lookup finds something shorter or nothing. -/
theorem foldl_shorter {best : Option Route6} (hb : ∀ b, best = some b → b.prefixLen < rt.prefixLen)
    (h : ∀ r ∈ before, r.covers daddr → r.prefixLen < rt.prefixLen) :
    ∀ b, before.foldl (route6Better daddr) best = some b → b.prefixLen < rt.prefixLen := by
  induction before generalizing best with
  | nil => exact hb
  | cons r before ih =>
    rw [List.foldl_cons]
    refine ih ?_ fun x hx => h x (List.mem_cons_of_mem _ hx)
    intro b hbest
    by_cases hc : r.covers daddr
    · rw [better_covers hc] at hbest
      split at hbest
      · rw [← Option.some.inj hbest]
        exact h r List.mem_cons_self hc
      · exact hb b hbest
    · rw [better_not hc] at hbest
      exact hb b hbest

theorem Best.lookup (h : Best daddr rt before after) :
    (before ++ rt :: after).foldl (route6Better daddr) none = some rt := by
  rw [List.foldl_append, List.foldl_cons, better_covers h.covers, if_pos, foldl_kept h.after]
  have hnone : ∀ b : Route6, none = some b → b.prefixLen < rt.prefixLen := fun _ => nofun
  rw [Option.all_eq_true]
  intro b hb
  exact decide_eq_true (foldl_shorter hnone h.before b hb)

theorem exists_best {routes : List Route6} {best : Option Route6} (h : routes.foldl (route6Better daddr) best = some rt) :
    (best = some rt ∧ ∀ r ∈ routes, r.covers daddr → r.prefixLen ≤ rt.prefixLen) ∨
      ∃ before after, routes = before ++ rt :: after ∧ Best daddr rt before after ∧
        ∀ b, best = some b → b.prefixLen < rt.prefixLen := by
  induction routes generalizing best with
  | nil => exact .inl ⟨h, fun _ => nofun⟩
  | cons r routes ih =>
    rw [List.foldl_cons] at h
    by_cases hc : r.covers daddr
    · rw [better_covers hc] at h
      by_cases hlt : (best.all fun b => b.prefixLen < r.prefixLen) = true
      · rw [if_pos hlt] at h
        have hbest : ∀ b, best = some b → b.prefixLen < r.prefixLen := fun b hb => by
          rw [hb] at hlt
          simpa using hlt
        rcases ih h with ⟨hr, hall⟩ | ⟨before, after, rfl, hb, hbst⟩
        · cases hr
          exact .inr ⟨[], routes, rfl, ⟨hc, fun _ => nofun, hall⟩, hbest⟩
        · have hr := hbst r rfl
          refine .inr ⟨r :: before, after, rfl, ⟨hb.covers, ?_, hb.after⟩, fun b hb' => ?_⟩
          · intro x hx hxc
            rcases List.mem_cons.mp hx with rfl | hx
            · exact hr
            · exact hb.before x hx hxc
          · have := hbest b hb'
            bv_omega
      · rw [if_neg hlt] at h
        rcases ih h with ⟨rfl, hall⟩ | ⟨before, after, rfl, hb, hbst⟩
        · refine .inl ⟨rfl, fun x hx hxc => ?_⟩
          rcases List.mem_cons.mp hx with rfl | hx
          · simpa using hlt
          · exact hall x hx hxc
        · cases best with
          | none => exact absurd rfl hlt
          | some b =>
            have hle : r.prefixLen ≤ b.prefixLen := by simpa using hlt
            have hb' := hbst b rfl
            refine .inr ⟨r :: before, after, rfl, ⟨hb.covers, ?_, hb.after⟩, hbst⟩
            intro x hx hxc
            rcases List.mem_cons.mp hx with rfl | hx
            · bv_omega
            · exact hb.before x hx hxc
    · rw [better_not hc] at h
      rcases ih h with ⟨rfl, hall⟩ | ⟨before, after, rfl, hb, hbst⟩
      · refine .inl ⟨rfl, fun x hx hxc => ?_⟩
        rcases List.mem_cons.mp hx with rfl | hx
        · exact absurd hxc hc
        · exact hall x hx hxc
      · refine .inr ⟨r :: before, after, rfl, ⟨hb.covers, ?_, hb.after⟩, hbst⟩
        intro x hx hxc
        rcases List.mem_cons.mp hx with rfl | hx
        · exact absurd hxc hc
        · exact hb.before x hx hxc

end Route6

namespace Host6

theorem route6Lookup_best {h : Host6} {daddr : In6Addr} {rt : Route6} (hl : h.route6Lookup daddr = some rt) :
    ∃ before after, h.routes = before ++ rt :: after ∧ Route6.Best daddr rt before after := by
  rcases Route6.exists_best hl with ⟨hn, -⟩ | ⟨before, after, he, hb, -⟩
  · cases hn
  · exact ⟨before, after, he, hb⟩

theorem mem_of_route6Lookup {h : Host6} {daddr : In6Addr} {rt : Route6} (hl : h.route6Lookup daddr = some rt) : rt ∈ h.routes := by
  obtain ⟨before, after, he, -⟩ := route6Lookup_best hl
  rw [he]
  exact List.mem_append_right _ List.mem_cons_self

/-- The route that was found has the new MTU, and is found again. -/
theorem route6UpdatePmtu_lookup {h : Host6} {daddr : In6Addr} {rt : Route6} (hl : h.route6Lookup daddr = some rt) (mtu : U16) :
    (h.route6UpdatePmtu daddr mtu).route6Lookup daddr = some { rt with pmtu := if mtu < 1280 then 1280 else mtu } := by
  obtain ⟨before, after, he, hb⟩ := route6Lookup_best hl
  have hidx : h.routes.findIdx (fun r => r = rt) = before.length := by
    rw [he, List.findIdx_append, List.findIdx_cons]
    have hno : before.findIdx (fun r => decide (r = rt)) = before.length := by
      rw [List.findIdx_eq_length]
      intro r hr
      refine decide_eq_false fun heq => ?_
      have := hb.before r hr (heq ▸ hb.covers)
      rw [heq] at this
      exact absurd this (BitVec.lt_irrefl _)
    simp [hno]
  unfold route6UpdatePmtu
  rw [hl]
  dsimp only
  rw [hidx]
  generalize (if mtu < 1280 then 1280 else mtu : U16) = new
  have hmod : h.routes.modify before.length (fun r => { r with pmtu := new }) = before ++ { rt with pmtu := new } :: after := by
    have hrt : (before ++ rt :: after)[before.length]? = some rt := by simp
    rw [he, Table.modify_eq_set hrt]
    simp
  rw [hmod]
  have hb' : Route6.Best daddr { rt with pmtu := new } before after := ⟨hb.covers, hb.before, hb.after⟩
  exact hb'.lookup

/-- Routes come with no MTU, and a message stores 1280 at least. -/
def Mtus (h : Host6) : Prop := ∀ rt ∈ h.routes, rt.pmtu = 0 ∨ 1280 ≤ rt.pmtu

theorem Mtus.update {h : Host6} (hm : h.Mtus) (daddr : In6Addr) (mtu : U16) : (h.route6UpdatePmtu daddr mtu).Mtus := by
  unfold route6UpdatePmtu
  dsimp only
  split
  · refine Table.forall_modify hm fun rt _ => .inr ?_
    show (1280 : U16) ≤ if mtu < 1280 then 1280 else mtu
    split <;> bv_omega
  · exact hm

theorem Mtus.pathMtu {h : Host6} (hm : h.Mtus) (daddr : In6Addr) : 1280 ≤ h.pathMtu daddr := by
  unfold Host6.pathMtu
  split
  next rt hl =>
    rcases hm rt (mem_of_route6Lookup hl) with h0 | h1
    · rw [h0, if_neg (by decide)]
      decide
    · rw [if_pos (by bv_omega)]
      exact h1
  next => decide

theorem ndpEntryAlloc_routes (h : Host6) (ip6 : In6Addr) : (h.ndpEntryAlloc ip6).routes = h.routes := by
  unfold ndpEntryAlloc
  split <;> rfl

theorem dst6NeighOutput_routes (h : Host6) (rt : Route6) (src daddr : In6Addr) (p : Sent6) :
    (h.dst6NeighOutput rt src daddr p).routes = h.routes := by
  unfold dst6NeighOutput
  generalize (if rt.flags &&& RT_GATEWAY ≠ 0 then rt.gateway else daddr) = hop
  dsimp only
  split
  · rfl
  · unfold ndpQueueSkb
    dsimp only
    split
    · exact ndpEntryAlloc_routes _ _
    · rfl

/-- What adds routes adds them without an MTU. -/
theorem Mtus.step {h : Host6} (hm : h.Mtus) (e : AddrEvent) : (h.step e).Mtus := by
  have hadd : ∀ (t : Host6) dst gw len flags metric, t.Mtus → (t.route6Add dst gw len flags metric).Mtus := by
    intro t dst gw len flags metric ht rt hrt
    rcases List.mem_append.mp hrt with hrt | hrt
    · exact ht rt hrt
    · rw [List.mem_singleton.mp hrt]
      exact .inl rfl
  have hkeep : ∀ t : Host6, t.routes = h.routes → t.Mtus := by
    intro t ht
    unfold Mtus
    rwa [ht]
  cases e with
  | init => exact hadd _ _ _ _ _ _ hm
  | raPrefix p => exact hkeep _ (raPrefix_routes h p)
  | raRoute gateway => exact hadd _ _ _ _ _ _ hm
  | na m => exact hkeep _ (ndpNaProcess_routes h m)
  | ns m => exact hm
  | tick held => exact hm
  | thread i =>
    refine hkeep _ ?_
    show (h.runThread i).routes = _
    unfold runThread
    split
    · rfl
    · unfold runHandler6
      split
      · unfold dadTimeout
        split
        · rfl
        · dsimp only
          split
          · rfl
          · split <;> rfl
      all_goals rfl
  | output saddr daddr nexthdr =>
    refine hkeep _ ?_
    show (h.ipv6OutputEx saddr daddr nexthdr).routes = _
    unfold ipv6OutputEx
    split
    · exact dst6NeighOutput_routes _ _ _ _ _
    · rfl

end Host6

/-! ## The MSS of the sockets -/

namespace Host

theorem inetStreamConnect_smss (s : TcpSock) (d : Dest) (iss : U32) :
    (inetStreamConnect s d iss).smss = s.smss ∨ (inetStreamConnect s d iss).smss = d.mss.getD s.smss := by
  rcases inetStreamConnect_cases s d iss with ⟨hst, ho⟩ | ⟨err, ho⟩
  · right
    rw [ho, tcpConnect_eq (s := s.addressed d) hst]
    exact congrArg Cong.smss (tcpQueueTransmitSkb_cong (synSock (s.addressed d) iss) _)
  · left
    rw [ho]

theorem tcpListen_smss {s : TcpSock} {th : Tcphdr} {env : SynEnv} {t : TcpSock} (h : tcpListen s th env = some t) :
    t.smss = 536 := congrArg Cong.smss (tcpListen_cong h)

theorem sourced_smss (net : Net6) (s t : TcpSock) : (sourced net s t).smss = t.smss := by
  unfold sourced
  split <;> rfl

/-- A property of the MSS that a fresh socket has, and a socket that has just
been connected. -/
structure MssLaw (Q : U16 → Prop) (net : Net6) : Prop where
  fresh : Q 536
  dialled : ∀ d, Q (net.pmtu d - 60)

/-- Every socket's MSS has the property. -/
def AllMss (Q : U16 → Prop) (h : Host) : Prop := ∀ k ∈ h.sockets, Q k.sk.smss

section mss
variable {Q : U16 → Prop} {h : Host}

theorem AllMss.at (hq : h.AllMss Q) {i : Nat} {k : Socket} (hk : h.sockets[i]? = some k) : Q k.sk.smss :=
  hq k (List.mem_of_getElem? hk)

theorem AllMss.update (hq : h.AllMss Q) {i : Nat} {f : Socket → Socket} (hf : ∀ k, (f k).sk.smss = k.sk.smss) :
    (h.update i f).AllMss Q :=
  update_forall (P := fun k => Q k.sk.smss) hq fun k hk => by
    rw [hf]
    exact hq k hk

theorem AllMss.ran (hq : h.AllMss Q) {i : Nat} {k : Socket} {c : Conn} (hc : Q c.sk.smss) : (h.ran i k c).AllMss Q := by
  refine ran_forall (P := fun k => Q k.sk.smss) hq (fun _ _ hk => hk) ?_
  show Q (sourced h.net k.sk c.sk).smss
  rwa [sourced_smss]

theorem AllMss.stepSocket (hq : h.AllMss Q) (i : Nat) {e : Event} (he : ∀ mss, e ≠ .adjustPmtu6 mss) :
    (h.stepSocket i e).AllMss Q := by
  unfold Host.stepSocket
  cases hk : h.sockets[i]? with
  | none => exact hq
  | some k =>
    refine hq.ran ?_
    rw [Conn.step_smss k.conn he]
    exact hq.at hk

theorem AllMss.addSocket (hq : h.AllMss Q) (pid : Nat) (family : Family) {s : TcpSock} (hs : Q s.smss) (connected : Bool) :
    (h.addSocket pid family s connected).AllMss Q := by
  unfold Host.addSocket
  split
  · exact hq
  · intro k hk
    rcases List.mem_append.mp hk with hk | hk
    · exact hq k hk
    · rw [List.mem_singleton.mp hk]
      exact hs

theorem AllMss.accepted (hq : h.AllMss Q) (i : Nat) (k : Socket) (fd : Int) : (h.accepted i k fd).AllMss Q := by
  unfold Host.accepted
  split
  · exact hq
  · exact hq.update fun _ => rfl

theorem AllMss.acceptTurn (hq : h.AllMss Q) (i : Nat) (k : Socket) : (h.acceptTurn i k).AllMss Q := by
  unfold Host.acceptTurn
  split
  · refine AllMss.accepted (hq.update ?_) _ _ _
    exact fun _ => rfl
  · split
    · exact hq.accepted _ _ _
    · exact hq.update fun _ => rfl

theorem AllMss.connect (hq : h.AllMss Q) (hl : MssLaw Q h.net) {i : Nat} {k : Socket} (hk : h.sockets[i]? = some k) (a : SockAddr)
    (iss : U32) : (h.connect i k a iss).AllMss Q := by
  unfold Host.connect
  split
  · exact hq.update fun _ => rfl
  · split
    · unfold Host.dial
      split
      · exact hq.update fun _ => rfl
      · refine AllMss.ran (h := { h with port := h.port + 1 }) hq ?_
        show Q (inetStreamConnect k.sk (h.dest k.family a) iss).smss
        rcases inetStreamConnect_smss k.sk (h.dest k.family a) iss with hs | hs
        · rw [hs]
          exact hq.at hk
        · rw [hs]
          cases k.family with
          | inet => exact hq.at hk
          | inet6 => exact hl.dialled a.addr6
    · split
      · exact hq.update fun _ => rfl
      · refine hq.update fun k => ?_
        rcases inetStreamConnect_smss k.sk {} iss with hs | hs <;> exact hs

/-- Only `tcp_v6_connect` and `socket_adjust_pmtu6` set the MSS of a socket. -/
theorem AllMss.step (hq : h.AllMss Q) (hl : MssLaw Q h.net) {e : HostEvent} (he : ∀ daddr pmtu, e ≠ .adjustPmtu6 daddr pmtu) :
    (h.step e).AllMss Q := by
  have hslept : ∀ (i : Nat) (asleep : Socket → Bool) (run : Socket → Host),
      (∀ k, h.sockets[i]? = some k → (run k).AllMss Q) → (h.withSleeper i asleep run).AllMss Q := fun i asleep run hrun => by
    unfold withSleeper
    cases hk : h.sockets[i]? with
    | none => exact hq
    | some k =>
      dsimp only
      split
      · exact hq
      · split
        · exact hrun k hk
        · exact hq
  have hcall : ∀ (pid : Nat) (fd : Int) (run : Nat → Socket → Host),
      (∀ i k, h.sockets[i]? = some k → (run i k).AllMss Q) → (h.withSocket pid fd run).AllMss Q := fun pid fd run hrun => by
    rcases withSocket_cases h pid fd run with ⟨-, hr⟩ | ⟨i, k, -, hk, hr⟩ <;> rw [hr]
    · exact hq
    · exact hrun i k hk
  unfold Host.step
  split
  · exact hq
  cases e with
  | socket pid family => exact hq.addSocket _ _ hl.fresh _
  | bind pid fd a =>
    refine hcall _ _ _ fun i k hk => ?_
    unfold Host.bind
    split
    · exact hq
    · exact hq.update fun _ => rfl
  | listen pid fd n =>
    refine hcall _ _ _ fun i k hk => ?_
    unfold Host.listen
    split
    · exact hq
    · refine hq.update fun k => ?_
      show (tcpV4Listen k.sk).smss = k.sk.smss
      rcases tcpV4Listen_cases k.sk with ⟨-, ho⟩ | ho <;> rw [ho]
      rfl
  | connect pid fd a iss => exact hcall _ _ _ fun i k hk => hq.connect hl hk a iss
  | accept pid fd addrlen =>
    refine hcall _ _ _ fun i k hk => ?_
    unfold Host.accept
    split
    · exact hq.update fun _ => rfl
    · split
      · exact hq.update fun _ => rfl
      · exact hq.acceptTurn i k
  | write pid fd buf => exact hcall _ _ _ fun i k hk => hq.stepSocket i fun _ => nofun
  | read pid fd len => exact hcall _ _ _ fun i k hk => hq.stepSocket i fun _ => nofun
  | close pid fd => exact hcall _ _ _ fun i k hk => hq.stepSocket i fun _ => nofun
  | fcntl pid fd nonblock => exact hcall _ _ _ fun i k hk => hq.stepSocket i fun _ => nofun
  | arrives ep th data psh iss =>
    dsimp only
    rcases tcpIn_cases h ep th data psh iss with ⟨-, hr⟩ | ⟨i, k, -, hk, hr⟩ <;> rw [hr]
    · exact hq
    · split
      · split
        · exact hq
        next child hc =>
          refine hq.addSocket _ _ ?_ _
          rw [sourced_smss, tcpListen_smss hc]
          exact hl.fresh
      · refine hq.ran (i := i) (k := k) ?_
        rw [Conn.step_smss (e := .segment th data psh) k.conn fun _ => nofun]
        exact hq.at hk
  | resume i n => exact hslept _ _ _ fun k hk => hq.stepSocket (e := .resume n) i fun _ => nofun
  | acceptWakes i =>
    refine hslept _ _ _ fun k hk => AllMss.acceptTurn (hq.update ?_) _ _
    exact fun _ => rfl
  | connectWakes i =>
    refine hslept _ _ _ fun k hk => ?_
    unfold Host.connectWakes
    split
    · exact hq
    · split
      · exact hq.update fun _ => rfl
      · exact hq.update fun _ => rfl
  | dispatch i n => exact hq.stepSocket (e := .dispatch n) i fun _ => nofun
  | handler i n => exact hslept _ _ _ fun k hk => hq.stepSocket (e := .handler n) i fun _ => nofun
  | collect i =>
    dsimp only
    split
    · exact hq.update fun _ => rfl
    · exact hq
  | tick ms =>
    intro k hk
    obtain ⟨k₀, hk₀, rfl⟩ := List.mem_map.mp hk
    show Q (k₀.conn.step (.tick ms)).sk.smss
    rw [Conn.step_smss (e := .tick ms) k₀.conn fun _ => nofun]
    exact hq k₀ hk₀
  | adjustPmtu6 daddr pmtu => exact absurd rfl (he daddr pmtu)
  | abort i =>
    dsimp only
    split
    · exact hq.stepSocket (e := .abort) i fun _ => nofun
    · exact hq
  | net6 net => exact hq

end mss

end Host

/-! ## `tcp_send` -/

/-- With room for a byte in each segment `tcp_send` gets to its end. -/
theorem tcpSendLoop_ne_spin {mss : U16} (hm : mss ≠ 0) (len : Nat) {fuel : Nat} {s : TcpSock} {buf : List U8}
    (hf : buf.length ≤ fuel) : (tcpSendLoop mss len fuel s buf).2 ≠ .spin := by
  induction fuel generalizing s buf with
  | zero =>
    cases buf with
    | nil => rintro ⟨⟩
    | cons x xs => exact absurd hf (by simp)
  | succ fuel ih =>
    cases buf with
    | nil => rintro ⟨⟩
    | cons x xs =>
      have hpos : 0 < mss.toNat := by bv_omega
      simp only [tcpSendLoop]
      split
      · refine ih ?_
        rw [List.length_cons] at hf
        rw [List.length_drop, List.length_cons]
        omega
      · simp

/-! ## The two sides together -/

/-- The address as the socket list has it. -/
def in6Bits (a : In6Addr) : BitVec 128 := BitVec.ofFnLE fun i : Fin 128 => a[15 - i.val / 8].getLsbD (i.val % 8)

/-- The address as the routes have it. -/
def bitsIn6 (b : BitVec 128) : In6Addr := Vector.ofFn fun i => b.extractLsb' (8 * (15 - i.val)) 8

theorem bitsIn6_in6Bits (a : In6Addr) : bitsIn6 (in6Bits a) = a := by
  refine Vector.ext fun i hi => ?_
  rw [bitsIn6, Vector.getElem_ofFn]
  refine BitVec.eq_of_getLsbD_eq fun j hj => ?_
  have hb : 8 * (15 - i) + j < 128 := by omega
  have hi' : 15 - (8 * (15 - i) + j) / 8 = i := by omega
  have hj' : (8 * (15 - i) + j) % 8 = j := by omega
  rw [BitVec.getLsbD_extractLsb', in6Bits, BitVec.getLsbD_ofFnLE]
  simp only [hb, hj, hi', hj', dite_true, decide_true, Bool.true_and]

/-- `sizeof(struct icmpv6_hdr)`. -/
def ICMPV6_HDR_LEN : Nat := 8

/-- The events that the IPv6 side itself gives the sockets. -/
def HostEvent.fromIpv6 : HostEvent → Bool
  | .adjustPmtu6 _ _ | .net6 _ => true
  | _ => false

structure Stack where
  v6 : Host6
  host : Host := {}

inductive StackEvent where
  | addr (e : AddrEvent)
  | host (e : HostEvent)
  /-- `icmpv6_pmtu_update` gets a packet of `len` bytes; `daddr` is the
  destination in the header it carries. -/
  | tooBig (len : Nat) (mtu : U32) (daddr : In6Addr)

namespace Stack

/-- What the sockets get from the IPv6 side. -/
def net (t : Stack) : Net6 where
  source d := (t.v6.route6Lookup (bitsIn6 d)).map fun _ => in6Bits (t.v6.dev.selectSource none).2
  pmtu d := t.v6.pathMtu (bitsIn6 d)

/-- The message is too short to carry an IPv6 header. -/
def tooShort (len : Nat) : Bool := len < ETH_HDR_LEN + IPV6_HDR_LEN + ICMPV6_HDR_LEN + IPV6_HDR_LEN

/-- `icmpv6_pmtu_update`. -/
def icmpv6PmtuUpdate (t : Stack) (len : Nat) (mtu : U32) (daddr : In6Addr) : Stack :=
  if tooShort len then t
  else
    { v6 := t.v6.route6UpdatePmtu daddr (mtu.setWidth 16)
      host := t.host.step (.adjustPmtu6 (in6Bits daddr) (mtu.setWidth 16)) }

def step (t : Stack) (e : StackEvent) : Stack :=
  if t.host.crashed then t
  else
    match e with
    | .addr e => { t with v6 := t.v6.step e }
    | .host e => if e.fromIpv6 then t else { t with host := Host.step { t.host with net := t.net } e }
    | .tooBig len mtu daddr => t.icmpv6PmtuUpdate len mtu daddr

abbrev run (t : Stack) (es : List StackEvent) : Stack := Machine.run step t es

/-- The sockets `socket_adjust_pmtu6` acts on. -/
def Addressed (daddr : In6Addr) (k : Socket) : Prop := k.listed ∧ k.family = .inet6 ∧ k.sk.daddr = .v6 (in6Bits daddr)

/-- The path MTU after a message: the smaller one, if there was one. -/
def mtuAfter (old : U16) (mtu : U32) : Nat := if old = 0 then max mtu.toNat 1280 else min old.toNat (max mtu.toNat 1280)

/-- **The route and the sockets follow the message**, which leads from `t` to
`u`, and 60 is not taken from less. -/
structure Follows (t u : Stack) (mtu : U32) (daddr : In6Addr) : Prop where
  fits : 60 ≤ (mtu.setWidth 16 : U16).toNat
  route : ∀ rt, t.v6.route6Lookup daddr = some rt →
    ∃ rt', u.v6.route6Lookup daddr = some rt' ∧ rt'.pmtu.toNat = mtuAfter rt.pmtu mtu
  sockets : ∀ (i : Nat) (k : Socket), t.host.sockets[i]? = some k → Addressed daddr k →
    ∃ k', u.host.sockets[i]? = some k' ∧ k'.sk.smss.toNat = min k.sk.smss.toNat (max mtu.toNat 1280 - 60)

/-- A message that is processed. -/
def Processes (t : Stack) (e : StackEvent) (mtu : U32) (daddr : In6Addr) : Prop :=
  t.host.crashed = false ∧ ∃ len, e = .tooBig len mtu daddr ∧ tooShort len = false

/-- Every message is followed. -/
def Followed (t : Stack) (e : StackEvent) : Prop := ∀ mtu daddr, t.Processes e mtu daddr → Follows t (t.step e) mtu daddr

/-- **Segmentation goes on**: no MSS is 0, `tcp_v6_connect` does not take 60
from less, and `tcp_send` gets to its end on every socket. -/
structure Segments (t : Stack) : Prop where
  mss : ∀ k ∈ t.host.sockets, k.sk.smss ≠ 0
  pmtu : ∀ daddr, 60 ≤ (t.v6.pathMtu daddr).toNat
  progress : ∀ k ∈ t.host.sockets, ∀ buf, (tcpSend k.sk buf).2 ≠ .spin

/-- The MTU suits the route's: it fits 16 bits and is not above one that is set,
or it does not fit and leaves what was set. -/
def SuitsRoute (old : U16) (mtu : U32) : Prop :=
  if old = 0 then mtu.toNat < 2 ^ 16
  else if mtu.toNat < 2 ^ 16 then max mtu.toNat 1280 ≤ old.toNat
  else old.toNat = max (mtu.toNat % 2 ^ 16) 1280

/-- The MTU suits a socket's MSS: between 1280 and 65535, or its lower half
leaves the MSS as it is. -/
def SuitsSocket (smss : U16) (mtu : U32) : Prop :=
  (1280 ≤ mtu.toNat ∧ mtu.toNat < 2 ^ 16) ∨ smss.toNat + 60 ≤ mtu.toNat % 2 ^ 16

/-- The message is one the code gets right. -/
def Suits (t : Stack) (e : StackEvent) : Prop :=
  ∀ mtu daddr, t.Processes e mtu daddr →
    60 ≤ mtu.toNat % 2 ^ 16 ∧ (∀ rt, t.v6.route6Lookup daddr = some rt → SuitsRoute rt.pmtu mtu) ∧
      ∀ k ∈ t.host.sockets, Addressed daddr k → SuitsSocket k.sk.smss mtu

/-! ## One message -/

theorem suitsRoute_iff (old : U16) (mtu : U32) :
    SuitsRoute old mtu ↔ (if (mtu.setWidth 16 : U16) < 1280 then 1280 else mtu.setWidth 16 : U16).toNat = mtuAfter old mtu := by
  have hlow : (mtu.setWidth 16 : U16).toNat = mtu.toNat % 2 ^ 16 := BitVec.toNat_setWidth ..
  have hnew : (if (mtu.setWidth 16 : U16) < 1280 then 1280 else mtu.setWidth 16 : U16).toNat = max (mtu.toNat % 2 ^ 16) 1280 := by
    split
    next h =>
      have : (mtu.setWidth 16 : U16).toNat < 1280 := h
      show 1280 = _
      omega
    next h =>
      have : ¬ (mtu.setWidth 16 : U16).toNat < 1280 := h
      omega
  have hold := old.isLt
  have hzero : old = 0 ↔ old.toNat = 0 := ⟨fun h => h ▸ rfl, fun h => BitVec.eq_of_toNat_eq h⟩
  rw [hnew, SuitsRoute, mtuAfter]
  by_cases h0 : old = 0
  · rw [if_pos h0, if_pos h0]
    omega
  · rw [if_neg h0, if_neg h0]
    split <;> omega

/-- What `socket_adjust_pmtu6` makes of an MSS. -/
theorem adjusted_smss (s : TcpSock) {mtu : U32} (hf : 60 ≤ mtu.toNat % 2 ^ 16) :
    (Conn.adjustPmtu6 s (mtu.setWidth 16 - 60)).smss.toNat = min s.smss.toNat (mtu.toNat % 2 ^ 16 - 60) := by
  have hlow : (mtu.setWidth 16 : U16).toNat = mtu.toNat % 2 ^ 16 := BitVec.toNat_setWidth ..
  have hnew : (mtu.setWidth 16 - 60 : U16).toNat = mtu.toNat % 2 ^ 16 - 60 := by
    rw [BitVec.toNat_sub_of_le (show (60 : U16).toNat ≤ _ by rw [hlow]; exact hf), hlow]
    rfl
  unfold Conn.adjustPmtu6
  split
  next h =>
    have : (mtu.setWidth 16 - 60 : U16).toNat < s.smss.toNat := h
    show (mtu.setWidth 16 - 60 : U16).toNat = _
    omega
  next h =>
    have : ¬ (mtu.setWidth 16 - 60 : U16).toNat < s.smss.toNat := h
    omega

theorem suitsSocket_iff (smss : U16) {mtu : U32} (hf : 60 ≤ mtu.toNat % 2 ^ 16) :
    SuitsSocket smss mtu ↔ min smss.toNat (mtu.toNat % 2 ^ 16 - 60) = min smss.toNat (max mtu.toNat 1280 - 60) := by
  have := smss.isLt
  unfold SuitsSocket
  omega

theorem step_tooBig {t : Stack} {e : StackEvent} {mtu : U32} {daddr : In6Addr} (hp : t.Processes e mtu daddr) :
    t.step e =
      { v6 := t.v6.route6UpdatePmtu daddr (mtu.setWidth 16)
        host := { t.host with sockets := t.host.sockets.map (Host.adjustSocket (in6Bits daddr) (mtu.setWidth 16)) } } := by
  obtain ⟨hc, len, rfl, hl⟩ := hp
  simp [step, hc, icmpv6PmtuUpdate, hl, Host.step]

theorem adjustSocket_addressed {daddr : In6Addr} {k : Socket} (ha : Addressed daddr k) (pmtu : U16) :
    (Host.adjustSocket (in6Bits daddr) pmtu k).sk = Conn.adjustPmtu6 k.sk (pmtu - 60) := by
  unfold Host.adjustSocket
  rw [if_pos (show _ ∧ _ ∧ _ from ha)]
  rfl

theorem adjustSocket_other {daddr : In6Addr} {k : Socket} (ha : ¬ Addressed daddr k) (pmtu : U16) :
    Host.adjustSocket (in6Bits daddr) pmtu k = k := if_neg ha

/-- A message is followed exactly if it suits the route and the sockets. -/
theorem follows_iff {t : Stack} {e : StackEvent} {mtu : U32} {daddr : In6Addr} (hp : t.Processes e mtu daddr) :
    Follows t (t.step e) mtu daddr ↔
      60 ≤ mtu.toNat % 2 ^ 16 ∧ (∀ rt, t.v6.route6Lookup daddr = some rt → SuitsRoute rt.pmtu mtu) ∧
        ∀ k ∈ t.host.sockets, Addressed daddr k → SuitsSocket k.sk.smss mtu := by
  have hlow : (mtu.setWidth 16 : U16).toNat = mtu.toNat % 2 ^ 16 := BitVec.toNat_setWidth ..
  have hsock : ∀ (i : Nat) (k : Socket), t.host.sockets[i]? = some k →
      (t.step e).host.sockets[i]? = some (Host.adjustSocket (in6Bits daddr) (mtu.setWidth 16) k) := by
    intro i k hk
    rw [step_tooBig hp]
    simp [hk]
  have hroute : ∀ rt, t.v6.route6Lookup daddr = some rt → (t.step e).v6.route6Lookup daddr =
      some { rt with pmtu := if (mtu.setWidth 16 : U16) < 1280 then 1280 else mtu.setWidth 16 } := by
    intro rt hl
    rw [step_tooBig hp]
    exact Host6.route6UpdatePmtu_lookup hl _
  constructor
  · intro hf
    have h60 : 60 ≤ mtu.toNat % 2 ^ 16 := hlow ▸ hf.fits
    refine ⟨h60, fun rt hl => ?_, fun k hk ha => ?_⟩
    · obtain ⟨rt', hl', hm⟩ := hf.route rt hl
      rw [hroute rt hl] at hl'
      rw [← Option.some.inj hl'] at hm
      exact (suitsRoute_iff _ _).mpr hm
    · obtain ⟨i, hi⟩ := List.mem_iff_getElem?.mp hk
      obtain ⟨k', hk', hm⟩ := hf.sockets i k hi ha
      rw [hsock i k hi] at hk'
      rw [← Option.some.inj hk', adjustSocket_addressed ha, adjusted_smss _ h60] at hm
      exact (suitsSocket_iff _ h60).mpr hm
  · rintro ⟨h60, hr, hs⟩
    refine ⟨hlow ▸ h60, fun rt hl => ⟨_, hroute rt hl, (suitsRoute_iff _ _).mp (hr rt hl)⟩, fun i k hk ha => ⟨_, hsock i k hk, ?_⟩⟩
    rw [adjustSocket_addressed ha, adjusted_smss _ h60]
    exact (suitsSocket_iff _ h60).mp (hs k (List.mem_of_getElem? hk) ha)

/-! ## Runs -/

theorem Segments.of_mss {t : Stack} (hm : t.host.AllMss (· ≠ 0)) (hv : t.v6.Mtus) : Segments t where
  mss := hm
  pmtu daddr := Nat.le_trans (by decide) (show (1280 : U16).toNat ≤ _ from hv.pathMtu daddr)
  progress k hk _ := tcpSendLoop_ne_spin (hm k hk) _ (le_refl _)

theorem step_mtus {t : Stack} (hv : t.v6.Mtus) (e : StackEvent) : (t.step e).v6.Mtus := by
  unfold step
  split
  · exact hv
  cases e with
  | addr e => exact hv.step e
  | host e =>
    dsimp only
    split <;> exact hv
  | tooBig len mtu daddr =>
    dsimp only
    unfold icmpv6PmtuUpdate
    split
    · exact hv
    · exact hv.update _ _

/-- The MSS of no socket becomes 0 at an event that suits. -/
theorem step_mss {t : Stack} (hv : t.v6.Mtus) (hm : t.host.AllMss (· ≠ 0)) {e : StackEvent} (hs : t.Suits e) :
    (t.step e).host.AllMss (· ≠ 0) := by
  by_cases hc : t.host.crashed = true
  · unfold step
    rwa [if_pos hc]
  cases e with
  | addr e =>
    unfold step
    rwa [if_neg hc]
  | host e =>
    unfold step
    rw [if_neg hc]
    dsimp only
    split
    · exact hm
    next hf =>
      have hlaw : Host.MssLaw (· ≠ 0) t.net := by
        refine ⟨by decide, fun d h0 => ?_⟩
        have := hv.pathMtu (bitsIn6 d)
        have h0 : t.v6.pathMtu (bitsIn6 d) - 60 = 0 := h0
        bv_omega
      refine Host.AllMss.step (h := { t.host with net := t.net }) hm hlaw ?_
      rintro daddr pmtu rfl
      exact hf rfl
  | tooBig len mtu daddr =>
    by_cases hl : tooShort len = true
    · simp only [step, hc, icmpv6PmtuUpdate, hl, if_true]
      exact hm
    · have hp : t.Processes (.tooBig len mtu daddr) mtu daddr := ⟨by simpa using hc, len, rfl, by simpa using hl⟩
      obtain ⟨h60, -, hsock⟩ := hs mtu daddr hp
      rw [step_tooBig hp]
      intro k hk
      obtain ⟨k₀, hk₀, rfl⟩ := List.mem_map.mp hk
      by_cases ha : Addressed daddr k₀
      · have hpos : k₀.sk.smss.toNat ≠ 0 := fun h => hm k₀ hk₀ (BitVec.eq_of_toNat_eq h)
        have hmin := (suitsSocket_iff _ h60).mp (hsock k₀ hk₀ ha)
        have hadj := adjusted_smss k₀.sk h60
        rw [adjustSocket_addressed ha]
        intro h0
        rw [h0] at hadj
        have hadj : 0 = min k₀.sk.smss.toNat (mtu.toNat % 2 ^ 16 - 60) := hadj
        omega
      · rw [adjustSocket_other ha]
        exact hm k₀ hk₀

/-- **Path MTUs.** In a run from start-up every message is followed, and
segmentation goes on at all times, exactly if every message suits the route and
the sockets it is for. -/
theorem followed_iff (hw : HwAddr) (es : List StackEvent) :
    Machine.Meets step Suits { v6 := bootHost6 hw } es ↔
      Machine.Meets step Followed { v6 := bootHost6 hw } es ∧ ∀ n, (run { v6 := bootHost6 hw } (es.take n)).Segments := by
  have hmtus : (bootHost6 hw).Mtus := by
    intro rt hrt
    rw [List.mem_singleton.mp (show rt ∈ [_] from hrt)]
    exact .inl rfl
  refine Machine.Meets.exact (I := fun t => t.v6.Mtus) (P := Segments) (fun _ e hv => step_mtus hv e) (fun t e hv hp => ?_) hmtus
    (.of_mss (fun _ hk => absurd hk List.not_mem_nil) hmtus) es
  constructor
  · intro hs
    exact ⟨fun mtu daddr hp' => (follows_iff hp').mpr (hs mtu daddr hp'), .of_mss (step_mss hv hp.mss hs) (step_mtus hv e)⟩
  · rintro ⟨hf, -⟩ mtu daddr hp'
    exact (follows_iff hp').mp (hf mtu daddr hp')

/-- `2001:db8::1`. -/
def farHost : In6Addr := #v[0x20, 0x01, 0x0d, 0xb8, 0, 0, 0, 0, 0, 0, 0, 0, 0, 0, 0, 0x01]

/-- A socket is connected to a far host, and a router says that the MTU to it
is 60. -/
def tinyMtu : List StackEvent :=
  [.host (.socket 1 .inet6), .host (.connect 1 4097 { family := .inet6, addr6 := in6Bits farHost, port := 80 } 0),
    .tooBig 102 60 farHost]

/-- Its MSS is 0 then. -/
theorem mss_zero : ¬ ∀ n, (run { v6 := bootHost6 netdevMac } (tinyMtu.take n)).Segments := by
  intro h
  have hbad : ((run { v6 := bootHost6 netdevMac } (tinyMtu.take 3)).host.sockets).any (fun k => k.sk.smss = 0) = true := by
    decide +kernel
  obtain ⟨k, hk, h0⟩ := List.any_eq_true.mp hbad
  exact (h 3).mss k hk (of_decide_eq_true h0)

end Stack

end LevelIp
