import Stm32F1.Lwip.Output

/-!
# Room for headers

The headers of a datagram are 42 bytes before its data.  If these are owned when
the datagram is handed to `ip_output_if`, nothing goes astray; and whatever they
are, the memory evolves and the function returns.
-/

namespace Stm32F1.Lwip.Output

open Prog

variable {G α β : Type} {k : Stack G} {room room' : Prop} {s s' s'' : Net G} {p q a base : UInt32}
  {n m off : Nat} {l l' : List (UInt32 × UInt8)} {bs : List UInt8} {netif : Netif}

/-- Reading a buffer changes nothing. -/
@[simp] theorem pbufAt_apply (p : UInt32) (s : Net G) : pbufAt p s = some (s.pbufs p, s) := rfl

/-- One buffer changes. -/
@[simp] theorem setPbuf_apply (p : UInt32) (f : Pbuf → Pbuf) (s : Net G) : setPbuf p f s =
    some ((), { s with pbufs := Function.update s.pbufs p (f (s.pbufs p)) }) := rfl

/-! ## What was sent -/

/-- Doing nothing. -/
theorem Sent.refl (k : Layout) (room : Prop) (s : Net G) : Sent k room s s where
  evolves := .refl s.ram
  static _ _ _ _ := rfl
  links _ _ := rfl
  tidy _ := rfl

/-- Two stages of sending. -/
theorem Sent.trans {k : Layout} (h : Sent k room s s') (h' : Sent k room s' s'') :
    Sent k room s s'' where
  evolves := h.evolves.trans h'.evolves
  static c hc a ha := (h'.static c hc a ha).trans (h.static c hc a ha)
  links p hp := (h'.links p (h.evolves.owned p hp)).trans (h.links p hp)
  tidy hroom := (h'.tidy hroom).trans (h.tidy hroom)

/-- With a stronger assumption about the room. -/
theorem Sent.weaken {k : Layout} (h : Sent k room s s') (hroom : room' → room) :
    Sent k room' s s' :=
  { h with tidy := fun h' ↦ h.tidy (hroom h') }

/-- What is sent in one step, and then in the steps that follow. -/
theorem Sent.bind {k : Layout} {prog : Prog (Net G) α} {f : α → Prog (Net G) β}
    {Q : α → Net G → Prop} (h : Run prog s Q)
    (hsent : ∀ x s', Q x s' → Sent k room s s')
    (hf : ∀ x s', Q x s' → Run (f x) s' fun _ s'' ↦ Sent k room s' s'') :
    Run (prog >>= f) s fun _ s'' ↦ Sent k room s s'' :=
  h.bind fun x s' hx ↦ (hf x s' hx).mono fun _ _ h' ↦ (hsent x s' hx).trans h'

/-- What comes after changes no memory, and links of new buffers only. -/
theorem Sent.extend {k : Layout} (h : Sent k room s s') (hram : s''.ram = s'.ram)
    (hlinks : ∀ p, s.ram.owned p = true → (s''.pbufs p).next = (s'.pbufs p).next) :
    Sent k room s s'' where
  evolves := hram ▸ h.evolves
  static c hc a ha := by rw [hram, h.static c hc a ha]
  links p hp := (hlinks p hp).trans (h.links p hp)
  tidy hroom := by rw [hram, h.tidy hroom]

/-- Nothing in memory changes, and no link. -/
theorem Sent.of_ram_eq {k : Layout} (hram : s'.ram = s.ram)
    (hlinks : ∀ p, (s'.pbufs p).next = (s.pbufs p).next) : Sent k room s s' :=
  (Sent.refl k room s).extend hram fun p _ ↦ hlinks p

/-- What came before changed variables only. -/
theorem Sent.since {k : Layout} (h : Sent k room s' s'') (hram : s'.ram = s.ram)
    (hpbufs : s'.pbufs = s.pbufs) : Sent k room s s'' :=
  Sent.trans (.of_ram_eq hram fun p ↦ by rw [hpbufs]) h

/-- A buffer that is replaced keeps its successor. -/
theorem next_update {h : UInt32 → Pbuf} (b : Pbuf) (hb : b.next = (h p).next) (r : UInt32) :
    (Function.update h p b r).next = (h r).next := by
  by_cases hr : r = p
  · subst hr
    rw [Function.update_self, hb]
  · rw [Function.update_of_ne hr]

/-! ## Fields -/

/-- The cells that are written are among the `n` cells from `base` on. -/
def Within (base : UInt32) (n : Nat) (l : List (UInt32 × UInt8)) : Prop :=
  ∀ x ∈ l, ∃ i < n, x.1 = base + .ofNat i

/-- What is written in two goes. -/
theorem Within.append (h : Within base n l) (h' : Within base n l') : Within base n (l ++ l') := by
  intro x hx
  rcases List.mem_append.1 hx with hx | hx
  · exact h x hx
  · exact h' x hx

/-- A field that ends before the stretch does. -/
theorem within_field (off : Nat) (h : off + bs.length ≤ n) :
    Within base n (field (base + .ofNat off) bs) := by
  induction bs generalizing off with
  | nil => exact fun x hx ↦ absurd hx List.not_mem_nil
  | cons b bs ih =>
      intro x hx
      rw [List.length_cons] at h
      rcases List.mem_cons.1 hx with rfl | hx
      · exact ⟨off, by omega, rfl⟩
      · have hnext : base + .ofNat off + 1 = base + .ofNat (off + 1) := by
          rw [UInt32.ofNat_add, UInt32.add_assoc]
          rfl
        rw [hnext] at hx
        exact ih (off + 1) (by omega) x hx

/-- Whoever owns a stretch owns what lies within. -/
theorem Owns.within (h : Owns s base n) (hl : Within base n l) :
    ∀ x ∈ l, s.ram.owned x.1 = true := by
  intro x hx
  obtain ⟨i, hi, hxi⟩ := hl x hx
  rw [hxi]
  exact h i hi

/-- Part of what is owned. -/
theorem Owns.part (h : Owns s base n) (off : Nat) (hm : off + m ≤ n) :
    Owns s (base + .ofNat off) m := by
  intro i hi
  have := h (off + i) (by omega)
  rwa [UInt32.ofNat_add, ← UInt32.add_assoc] at this

/-- Memory that is owned stays so. -/
theorem Owns.evolve (h : Owns s base n) (hs : s.ram.Evolves s'.ram) : Owns s' base n :=
  fun i hi ↦ hs.owned _ (h i hi)

/-- Writing obtains nothing. -/
theorem InUse.write (h : InUse s) (hram : s'.ram = s.ram.writeAll l) (hlive : s'.live = s.live) :
    InUse s' := by
  intro a ha
  rw [hram, Watched.owned_writeAll] at ha
  rw [hlive]
  exact h a ha

/-- Storing to memory that is owned. -/
theorem sent_store (k : Layout) (hl : room → ∀ x ∈ l, s.ram.owned x.1 = true) :
    Run (store l) s fun _ s' ↦
      (s'.pbufs = s.pbufs ∧ s'.ram = s.ram.writeAll l ∧ s'.live = s.live) ∧ Sent k room s s' := by
  refine run_modify.2 ⟨⟨rfl, rfl, rfl⟩, ?_⟩
  constructor
  · exact Watched.evolves_writeAll s.ram l
  · intro c _ a _
    exact congrFun (Watched.owned_writeAll s.ram l) a
  · exact fun _ _ ↦ rfl
  · exact fun hroom ↦ Watched.stray_writeAll (hl hroom)

/-- A field is stored, of what is owned if there is room. -/
theorem sent_storeField (k : Layout) (hroom : room → Owns s base n) (off : Nat)
    (h : off + bs.length ≤ n) : Run (store (field (base + .ofNat off) bs)) s fun _ s' ↦
      (s'.pbufs = s.pbufs ∧ s'.ram = s.ram.writeAll (field (base + .ofNat off) bs) ∧
        s'.live = s.live) ∧ Sent k room s s' :=
  sent_store k fun hr ↦ (hroom hr).within (within_field off h)

@[simp] theorem length_le16 (x : UInt16) : (le16 x).length = 2 := rfl

@[simp] theorem length_le32 (x : UInt32) : (le32 x).length = 4 := rfl

/-- The Ethernet header has 14 bytes. -/
theorem within_ethFields (ethhdr : UInt32) (src dst : EthAddr) :
    Within ethhdr 14 (ethFields ethhdr src dst) := by
  refine .append (.append ?_ ?_) ?_
  · exact within_field 0 (by simp)
  · exact within_field 6 (by simp)
  · exact within_field 12 (by simp)

/-- The IP header has 20. -/
theorem within_ipFields (iphdr : UInt32) (proto ttl tos : UInt8) (src dest : UInt32)
    (len id : UInt16) : Within iphdr 20 (ipFields iphdr proto ttl tos src dest len id) := by
  refine .append (.append (.append (.append (.append (.append (.append (.append (.append
    ?_ ?_) ?_) ?_) ?_) ?_) ?_) ?_) ?_) ?_
  · exact within_field 8 (by simp)
  · exact within_field 9 (by simp)
  · exact within_field 16 (by simp)
  · exact within_field 0 (by simp)
  · exact within_field 1 (by simp)
  · exact within_field 2 (by simp)
  · exact within_field 6 (by simp)
  · exact within_field 4 (by simp)
  · exact within_field 12 (by simp)
  · exact within_field 10 (by simp)

/-- And the UDP header 8. -/
theorem within_udpPorts (udphdr : UInt32) (src dest : UInt16) :
    Within udphdr 8 (udpPorts udphdr src dest) := by
  refine .append (.append ?_ ?_) ?_
  · exact within_field 0 (by simp)
  · exact within_field 2 (by simp)
  · exact within_field 6 (by simp)

/-! ## Chains -/

theorem ends_none (s : Net G) : Ends s none := ⟨0, rfl⟩

/-- A buffer in front of a chain that ends. -/
theorem ends_some (h : Ends s (s.pbufs p).next) : Ends s (some p) := by
  obtain ⟨n, hn⟩ := h
  exact ⟨n + 1, hn⟩

/-- The header is in `q`, which is the last buffer `p`, or leads to it, or to nothing. -/
structure Headed (s : Net G) (p q : UInt32) : Prop where
  owned : s.ram.owned p = true
  header : s.ram.owned q = true
  last : (s.pbufs p).next = none
  first : q = p ∨ (s.pbufs q).next = none ∨ (s.pbufs q).next = some p

/-- The chain that is sent ends, -/
theorem Headed.ends_last (h : Headed s p q) : Ends s (some p) :=
  ends_some (h.last ▸ ends_none s)

/-- with its header in front as well. -/
theorem Headed.ends (h : Headed s p q) : Ends s (some q) := by
  obtain rfl | hq | hq := h.first
  · exact h.ends_last
  · exact ends_some (hq ▸ ends_none s)
  · exact ends_some (hq ▸ h.ends_last)

/-- Sending leaves the header in front of the data. -/
theorem Headed.sent {k : Layout} (h : Headed s p q) (hs : Sent k room s s') : Headed s' p q where
  owned := hs.evolves.owned p h.owned
  header := hs.evolves.owned q h.header
  last := (hs.links p h.owned).trans h.last
  first := by
    rw [hs.links q h.header]
    exact h.first

/-- The headers go to the 42 bytes from `base` on: that of UDP is where the payload pointer leads to
now, at the end of them. -/
structure Loaded (s : Net G) (p q base : UInt32) : Prop extends Headed s p q where
  inUse : InUse s
  ram : (s.pbufs q).type = .ram
  len : (s.pbufs q).totLen.toNat ≤ 1480
  payload : (s.pbufs q).payload = base + 34

/-- And the data where they are. -/
theorem Loaded.sent {k : Layout} (h : Loaded s p q base) (hs : Sent k room s s')
    (hpbufs : s'.pbufs = s.pbufs) (huse : InUse s') : Loaded s' p q base where
  toHeaded := h.toHeaded.sent hs
  inUse := huse
  ram := hpbufs ▸ h.ram
  len := hpbufs ▸ h.len
  payload := hpbufs ▸ h.payload

/-- `pbuf_free` returns, and leaves the memory and the links. -/
theorem run_pbufFree (k : Layout) (room : Prop) (h : Ends s (some q)) :
    Run (pbufFree q) s fun _ s' ↦ Sent k room s s' := by
  obtain ⟨n, hn⟩ := h
  suffices hgen : ∀ n p (s : Net G),
      (fun p : Option UInt32 ↦ p.bind fun p ↦ (s.pbufs p).next)^[n] p = none →
        Run (pbufFreeLoop p) s fun _ s' ↦ Sent k room s s' from hgen n _ s hn
  intro n
  induction n with
  | zero =>
      rintro p s rfl
      rw [pbufFreeLoop, repeatM_unfold]
      exact run_pure.2 (.refl ..)
  | succ n ih =>
      intro p s hp
      rw [pbufFreeLoop, repeatM_unfold]
      cases p with
      | none => exact run_pure.2 (.refl ..)
      | some p =>
          have hlinks (r : UInt32) : (Function.update s.pbufs p
              { s.pbufs p with ref := (s.pbufs p).ref - 1 } r).next = (s.pbufs r).next := by
            apply next_update
            rfl
          refine run_bind.2 (run_bind.2 (run_modify.2 (run_bind.2 (run_read.2 (run_ite.2 ?_)))))
          split
          · refine run_bind.2 (run_modify.2 (run_pure.2 ((ih _ _ ?_).mono ?_)))
            · simp only [hlinks]
              exact hp
            · intro _ _ hs
              refine Sent.trans ?_ hs
              exact .of_ram_eq rfl hlinks
          · refine run_pure.2 ((ih _ _ ?_).mono ?_)
            · exact Function.iterate_fixed rfl n
            · intro _ _ hs
              refine Sent.trans ?_ hs
              exact .of_ram_eq rfl hlinks

/-- The buffer for the header is given back, if it is not that of the data. -/
theorem run_freeHeader (h : Headed s p q) :
    Run (when (q ≠ p) (pbufFree q)) s fun _ s' ↦ Sent k.toLayout room s s' :=
  run_when (fun _ ↦ run_pbufFree _ room h.ends) fun _ ↦ .refl ..

/-- `pbuf_header`, for a header in a buffer of the type `PBUF_RAM`. -/
theorem pbufHeader_apply {inc : Int16} (hinc : 0 < inc) (hram : (s.pbufs p).type = .ram) :
    pbufHeader p inc s =
      if ((s.pbufs p).moved inc).payload < p + .ofNat SIZEOF_STRUCT_PBUF then some (1, s)
      else some (0, { s with pbufs := Function.update s.pbufs p ((s.pbufs p).moved inc) }) := by
  have hirrefl : ¬ (0 : Int16) < 0 := by decide
  have hne : inc ≠ 0 := by
    rintro rfl
    exact hirrefl hinc
  have hneg : ¬ inc < 0 := fun h ↦ hirrefl (Int16.lt_trans hinc h)
  rw [pbufHeader, if_neg hne, bind_of_eq (pbufAt_apply p s), if_neg fun h ↦ hneg h.1,
    if_pos (Or.inl hram)]
  split <;> rfl

/-! ## Down the stack -/

/-- `etharp_send_ip` writes the Ethernet header, if there is room for it. -/
theorem run_etharpSendIp (hroom : room → Owns s (s.pbufs q).payload 14) (src dst : EthAddr) :
    Run (etharpSendIp k q src dst) s fun _ s' ↦ Sent k.toLayout room s s' := by
  have hcells : room → ∀ x ∈ ethFields (s.pbufs q).payload src dst, s.ram.owned x.1 = true :=
    fun hr ↦ (hroom hr).within (within_ethFields _ src dst)
  refine run_bind.2 (run_read.2 (Sent.bind (sent_store k.toLayout hcells) ?_ ?_))
  · exact fun _ _ hs ↦ hs.2
  · exact fun _ _ _ ↦ run_read.2 (.refl ..)

/-- Asking for the address again touches no buffer that is in use. -/
theorem run_rerequest (huse : InUse s) (netif : Netif) (i : Nat) :
    Run (rerequest k netif i) s fun _ s' ↦
      Sent k.toLayout True s s' ∧ ∀ p, s.ram.owned p = true → s'.pbufs p = s.pbufs p := by
  refine run_bind.2 (run_read.2 (run_ite.2 ?_))
  split
  · refine (k.request_sent netif _ s huse).bind ?_
    intro err s' hs
    refine run_when (fun _ ↦ run_modify.2 ⟨hs.1.trans ?_, hs.2⟩) fun _ ↦ hs
    exact .of_ram_eq rfl fun _ ↦ rfl
  · exact run_pure.2 ⟨.refl .., fun _ _ ↦ rfl⟩

/-- `etharp_output_to_arp_index` writes the Ethernet header, and may ask for the address again. -/
theorem run_etharpOutputToArpIndex (huse : InUse s) (hq : s.ram.owned q = true)
    (hroom : room → Owns s (s.pbufs q).payload 14) (netif : Netif) (i : Nat) :
    Run (etharpOutputToArpIndex k netif q i) s fun _ s' ↦ Sent k.toLayout room s s' := by
  refine Sent.bind (run_rerequest huse netif i) (fun _ _ hs ↦ hs.1.weaken fun _ ↦ trivial) ?_
  intro _ s' hs
  refine run_bind.2 (run_read.2 (run_etharpSendIp ?_ ..))
  intro hr
  rw [hs.2 q hq]
  exact (hroom hr).evolve hs.1.evolves

/-- To any address, in the table or not: then the packet is queued. -/
theorem run_etharpUnicast (huse : InUse s) (hq : Headed s p q)
    (hroom : room → Owns s (s.pbufs q).payload 14) (netif : Netif) (dstAddr : UInt32) :
    Run (etharpUnicast k netif q dstAddr) s fun _ s' ↦ Sent k.toLayout room s s' := by
  refine run_bind.2 (run_read.2 (run_ite.2 ?_))
  split
  · exact run_etharpOutputToArpIndex huse hq.header hroom ..
  · cases (List.range ARP_TABLE_SIZE).find? fun i ↦
        decide ((s.arpTable i).isStable = true ∧ dstAddr = (s.arpTable i).ipaddr) with
    | some i =>
        have hout := run_etharpOutputToArpIndex (k := k)
          (s := { s with etharpCachedEntry := i.toUInt8 }) huse hq.header hroom netif i
        exact run_bind.2 (run_modify.2 (hout.mono fun _ _ hs ↦ hs.since rfl rfl))
    | none => exact (k.query_sent netif dstAddr q s huse hq.ends).mono fun _ _ hs ↦ hs.weaken hroom

/-- The payload pointer was moved down in `q`. -/
def lowered (s : Net G) (q : UInt32) (inc : Int16) : Net G :=
  { s with pbufs := Function.update s.pbufs q ((s.pbufs q).moved inc) }

/-- The payload moves down to the header. -/
@[simp] theorem pbufs_lowered (s : Net G) (q : UInt32) (inc : Int16) :
    (lowered s q inc).pbufs q = (s.pbufs q).moved inc := Function.update_self ..

/-- Moving it writes nothing. -/
theorem sent_lowered (k : Layout) (room : Prop) (s : Net G) (q : UInt32) (inc : Int16) :
    Sent k room s (lowered s q inc) :=
  .of_ram_eq rfl (next_update _ rfl)

/-- A function that moves the payload pointer down first: it is enough to know what it does once the
pointer was moved. -/
theorem run_lower {inc : Int16} (hinc : 0 < inc) (hram : (s.pbufs q).type = .ram) (err : α)
    {prog : Prog (Net G) α}
    (h : Run prog (lowered s q inc) fun _ s' ↦ Sent k.toLayout room (lowered s q inc) s') :
    Run (pbufHeader q inc >>= fun r ↦ if r ≠ 0 then pure err else prog) s fun _ s' ↦
      Sent k.toLayout room s s' := by
  have happly := pbufHeader_apply hinc hram
  split at happly
  · rw [Run, bind_of_eq happly]
    exact run_pure.2 (.refl ..)
  · rw [Run, bind_of_eq happly]
    exact h.mono fun _ _ hs ↦ (sent_lowered ..).trans hs

/-- `etharp_output`, for all kinds of addresses. -/
theorem run_etharpOutput (huse : InUse s) (hq : Headed s p q) (hram : (s.pbufs q).type = .ram)
    (hbase : (s.pbufs q).payload = base + 14) (hroom : room → Owns s base 14) (netif : Netif)
    (ipaddr : UInt32) :
    Run (etharpOutput k netif q ipaddr) s fun _ s' ↦ Sent k.toLayout room s s' := by
  refine run_lower (by decide) hram ERR_BUF ?_
  have hpayload : ((lowered s q SIZEOF_ETH_HDR).pbufs q).payload = base := by
    rw [pbufs_lowered, Pbuf.moved, hbase]
    exact UInt32.add_sub_cancel base 14
  have hroom' : room → Owns (lowered s q SIZEOF_ETH_HDR)
      ((lowered s q SIZEOF_ETH_HDR).pbufs q).payload 14 := by
    rw [hpayload]
    exact hroom
  have hq' := hq.sent (sent_lowered k.toLayout room s q SIZEOF_ETH_HDR)
  refine run_ite.2 ?_
  split
  · exact run_etharpSendIp hroom' ..
  · refine run_ite.2 ?_
    split
    · exact run_etharpSendIp hroom' ..
    · cases nextHop netif ipaddr with
      | some dstAddr =>
          exact run_etharpUnicast (s := lowered s q SIZEOF_ETH_HDR) huse hq' hroom' netif dstAddr
      | none => exact run_pure.2 (.refl ..)

/-- `ip_id` counts on. -/
theorem run_nextIpId (k : Layout) (room : Prop) (huse : InUse s) :
    Run nextIpId s fun _ s' ↦ Sent k room s s' ∧ s'.pbufs = s.pbufs ∧ InUse s' :=
  run_act.2 ⟨.of_ram_eq rfl fun _ ↦ rfl, rfl, huse⟩

/-- `ip_output_if` writes the IP header and passes the packet on. -/
theorem run_ipOutputIf (hq : Loaded s p q base) (hroom : room → Owns s base 42)
    (src dest : UInt32) (ttl tos proto : UInt8) (netif : Netif) :
    Run (ipOutputIf k q src dest ttl tos proto netif) s fun _ s' ↦ Sent k.toLayout room s s' := by
  obtain ⟨hheaded, huse, hram, hlen, hbase⟩ := hq
  refine run_lower (by decide) hram ERR_BUF ?_
  have hsent := sent_lowered k.toLayout room s q IP_HLEN
  have hpayload : ((s.pbufs q).moved IP_HLEN).payload = base + 14 := by
    rw [Pbuf.moved, hbase]
    change base + 34 - 20 = base + 14
    grind
  have hfits : ¬ ((s.pbufs q).moved IP_HLEN).totLen > MTU := by
    change ¬ MTU < (s.pbufs q).totLen + 20
    rw [UInt16.lt_iff_toNat_lt, UInt16.toNat_add]
    change ¬ 1500 < ((s.pbufs q).totLen.toNat + 20) % 65536
    omega
  refine run_bind.2 (run_read.2 (Sent.bind
    (run_nextIpId (s := lowered s q IP_HLEN) k.toLayout room huse) (fun _ _ hs ↦ hs.1) ?_))
  rintro id s₁ ⟨hid, hpbufs, huse₁⟩
  have hroom₁ : room → Owns s₁ base 42 := fun hr ↦ (hroom hr).evolve (hsent.trans hid).evolves
  rw [pbufs_lowered, hpayload]
  generalize (if src = IPADDR_ANY then netif.ipAddr else src) = src
  have hcells : room → ∀ x ∈ ipFields (base + 14) proto ttl tos src dest
      ((s.pbufs q).moved IP_HLEN).totLen id, s₁.ram.owned x.1 = true := by
    intro hr
    have howns : Owns s₁ (base + .ofNat 14) 20 := (hroom₁ hr).part 14 (by decide)
    exact howns.within (within_ipFields _ proto ttl tos src dest _ id)
  refine Sent.bind (sent_store k.toLayout hcells) (fun _ _ hs ↦ hs.2) ?_
  rintro _ s₂ ⟨hstore, hs⟩
  rw [if_neg fun h ↦ hfits h.2]
  have hpbufs₂ : s₂.pbufs q = (s.pbufs q).moved IP_HLEN := by
    rw [hstore.1, hpbufs, pbufs_lowered]
  have hroom₂ : room → Owns s₂ base 14 := fun hr i hi ↦
    (hroom₁ hr).evolve hs.evolves i (by omega)
  have huse₂ := huse₁.write hstore.2.1 hstore.2.2
  refine run_etharpOutput huse₂ (((hheaded.sent hsent).sent hid).sent hs) ?_ ?_ hroom₂ netif dest
  · rw [hpbufs₂]
    exact hram
  · rw [hpbufs₂]
    exact hpayload

/-- The length and the checksum of the UDP header. -/
theorem run_lenAndChksum (huse : InUse s) (hroom : room → Owns s base 8) (b : UdpPcb)
    (q srcIp dstIp : UInt32) :
    Run (lenAndChksum k b q base srcIp dstIp) s fun _ s' ↦
      Sent k.toLayout room s s' ∧ s'.pbufs = s.pbufs ∧ InUse s' := by
  refine run_bind.2 (run_read.2 ((sent_storeField k.toLayout hroom 4 (by simp)).bind ?_))
  rintro _ s₁ ⟨hstore, hs⟩
  have hroom₁ : room → Owns s₁ base 8 := fun hr ↦ (hroom hr).evolve hs.evolves
  have huse₁ := huse.write hstore.2.1 hstore.2.2
  refine run_ite.2 ?_
  split
  · refine run_bind.2 (run_read.2 ((sent_storeField k.toLayout hroom₁ 6 (by simp)).mono ?_))
    rintro _ s₂ ⟨hstore', hs'⟩
    exact ⟨hs.trans hs', hstore'.1.trans hstore.1, huse₁.write hstore'.2.1 hstore'.2.2⟩
  · exact run_pure.2 ⟨hs, hstore.1, huse₁⟩

/-- The UDP header, and all that follows. -/
theorem run_udpDatagram (hq : Loaded s p q base) (hroom : room → Owns s base 42) (b : UdpPcb)
    (dstIp : UInt32) (netif : Netif) :
    Run (udpDatagram k b p q (base + 34) dstIp netif) s fun _ s' ↦ Sent k.toLayout room s s' := by
  rw [udpDatagram]
  cases sourceIp b netif with
  | none =>
      refine Sent.bind (run_freeHeader hq.toHeaded) (fun _ _ hs ↦ hs) ?_
      exact fun _ _ _ ↦ run_pure.2 (.refl ..)
  | some srcIp =>
      have hudp : room → Owns s (base + .ofNat 34) 8 := fun hr ↦ (hroom hr).part 34 (by decide)
      refine Sent.bind (run_lenAndChksum hq.inUse hudp b q srcIp dstIp) (fun _ _ hs ↦ hs.1) ?_
      rintro _ s₁ ⟨hs, hpbufs, huse⟩
      have hq₁ := hq.sent hs hpbufs huse
      have hroom₁ : room → Owns s₁ base 42 := fun hr ↦ (hroom hr).evolve hs.evolves
      refine Sent.bind (run_ipOutputIf hq₁ hroom₁ ..) (fun _ _ hs ↦ hs) ?_
      intro err s₂ hs₂
      refine Sent.bind (run_freeHeader (hq₁.toHeaded.sent hs₂)) (fun _ _ hs ↦ hs) ?_
      exact fun _ _ _ ↦ run_pure.2 (.refl ..)

/-- The last byte of the header of UDP is written whatever happens then. -/
theorem run_udpOutput (hq : Loaded s p q base) (hroom : room → Owns s base 42)
    (pcb dstIp : UInt32) (dstPort : UInt16) (netif : Netif) :
    Run (udpOutput k pcb p q dstIp dstPort netif) s fun _ s' ↦ Sent k.toLayout room s s' ∧
      (s.ram.owned (base + 41) = false → s'.ram.stray ≠ []) := by
  refine run_bind.2 (run_read.2 (run_bind.2 (run_read.2 ?_)))
  rw [hq.payload]
  have hcells : room → ∀ x ∈ udpPorts (base + 34) (s.pcbs pcb).localPort dstPort,
      s.ram.owned x.1 = true := by
    intro hr
    have howns : Owns s (base + .ofNat 34) 8 := (hroom hr).part 34 (by decide)
    exact howns.within (within_udpPorts _ _ dstPort)
  refine (sent_store k.toLayout hcells).bind ?_
  rintro _ s₁ ⟨⟨hpbufs, hram, hlive⟩, hs⟩
  have hroom₁ : room → Owns s₁ base 42 := fun hr ↦ (hroom hr).evolve hs.evolves
  have huse := hq.inUse.write hram hlive
  refine (run_udpDatagram (hq.sent hs hpbufs huse) hroom₁ ..).mono ?_
  intro _ s₂ hs₂
  refine ⟨hs.trans hs₂, ?_⟩
  intro howned
  have hlast : (base + 41, 0) ∈ udpPorts (base + 34) (s.pcbs pcb).localPort dstPort := by
    have heq : base + 41 = base + 34 + 6 + 1 := by grind
    rw [heq]
    exact List.mem_append_right _ (List.mem_cons_of_mem _ (List.mem_cons_self ..))
  refine hs₂.evolves.stray_ne_nil (a := base + 41) ?_
  rw [hram]
  exact Watched.mem_stray_writeAll hlast howned

/-- `udp_bind` works on the PCB only. -/
theorem run_bindUnbound (k : Stack G) (pcb : UInt32) (s : Net G) :
    Run (bindUnbound k pcb) s fun err s' ↦
      (s'.ram = s.ram ∧ s'.pbufs = s.pbufs ∧ s'.live = s.live) ∧
        (err = ERR_OK ↔ ((s.pcbs pcb).localPort = 0 → (k.udpBind (s.pcbs pcb)).1 = ERR_OK)) := by
  refine run_bind.2 (run_read.2 (run_ite.2 ?_))
  split
  · next hport =>
      refine run_bind.2 (run_modify.2 (run_pure.2 ⟨⟨rfl, rfl, rfl⟩, ?_⟩))
      exact ⟨fun h _ ↦ h, fun h ↦ h hport⟩
  · next hport =>
      refine run_pure.2 ⟨⟨rfl, rfl, rfl⟩, ?_⟩
      exact ⟨fun _ h ↦ absurd h hport, fun _ ↦ rfl⟩

/-! ## Buffers from the heap -/

/-- An address within the memory. -/
theorem toNat_add_ofNat (h : a.toNat + n < 2 ^ 32) : (a + .ofNat n).toNat = a.toNat + n := by
  rw [UInt32.toNat_add, UInt32.toNat_ofNat']
  omega

theorem Block.covers_iff : Block.covers ⟨p, n⟩ a = true ↔
    p.toNat ≤ a.toNat ∧ a.toNat < p.toNat + n := decide_eq_true_iff

/-- A block covers every address from its first one on. -/
theorem Block.covers_add (hbound : p.toNat + m ≤ 2 ^ 32) (hn : n < m) :
    Block.covers ⟨p, m⟩ (p + .ofNat n) = true := by
  rw [covers_iff, toNat_add_ofNat (by omega)]
  omega

/-- And no others. -/
theorem Block.exists_of_covers {b : Block} (h : b.covers a = true) :
    ∃ d < b.size, a = b.start + .ofNat d := by
  obtain ⟨hle, hlt⟩ := covers_iff.1 h
  refine ⟨a.toNat - b.start.toNat, by omega, ?_⟩
  have hbound := a.toNat_lt
  apply UInt32.toNat_inj.1
  rw [toNat_add_ofNat (by omega)]
  omega

/-- What is aligned already is not rounded. -/
theorem Layout.memAlignSize_add (k : Layout) {x : Nat} (h : x % k.memAlignment = 0) (n : Nat) :
    k.memAlignSize (x + n) = x + k.memAlignSize n := by
  obtain hm | hm | hm := k.memAlignment_eq
  all_goals
    rw [memAlignSize, memAlignSize, hm]
    rw [hm] at h
    omega

/-- Rounding adds 3 bytes at most. -/
theorem Layout.le_memAlignSize (k : Layout) (n : Nat) :
    n ≤ k.memAlignSize n ∧ k.memAlignSize n ≤ n + 3 := by
  obtain hm | hm | hm := k.memAlignment_eq
  all_goals
    rw [memAlignSize, hm]
    omega

/-- Behind an aligned address, rounding it is rounding the distance. -/
theorem Layout.memAlign_add (k : Layout) (h : a.toNat % k.memAlignment = 0)
    (hn : a.toNat + n < 2 ^ 32) : k.memAlign (a + .ofNat n) = a + .ofNat (k.memAlignSize n) := by
  rw [memAlign, toNat_add_ofNat hn, k.memAlignSize_add h, UInt32.ofNat_add, UInt32.ofNat_toNat]

/-- A `pbuf` takes memory. -/
theorem Layout.pbufSize_pos (k : Layout) (layer : PbufLayer) (length : UInt16) :
    0 < k.pbufSize layer length := by
  have hsize : 16 + layer.offset ≤ k.memAlignSize (SIZEOF_STRUCT_PBUF + layer.offset) :=
    (k.le_memAlignSize _).1
  rw [pbufSize]
  omega

/-- Also at its own address. -/
theorem Layout.covers_self (k : Layout) (layer : PbufLayer) (length : UInt16) (p : UInt32) :
    Block.covers ⟨p, k.pbufSize layer length⟩ p = true := by
  have hpos := k.pbufSize_pos layer length
  rw [Block.covers_iff]
  omega

/-- A buffer as `pbuf_alloc` gives it. -/
def fresh (k : Layout) (layer : PbufLayer) (length : UInt16) (p : UInt32) : Pbuf where
  next := none
  payload := k.memAlign (p + .ofNat (SIZEOF_STRUCT_PBUF + layer.offset))
  totLen := length
  len := length
  type := .ram
  flags := 0
  ref := 1

/-- A buffer was obtained. -/
def allocated (k : Layout) (s : Net G) (layer : PbufLayer) (length : UInt16) (p : UInt32) : Net G :=
  { s with
    live := ⟨p, k.pbufSize layer length⟩ :: s.live
    ram := s.ram.acquire (Block.covers ⟨p, k.pbufSize layer length⟩)
    pbufs := Function.update s.pbufs p (fresh k layer length p) }

/-- What `pbuf_alloc` writes into the new `pbuf`. -/
@[simp] theorem pbufs_allocated (k : Layout) (s : Net G) (layer : PbufLayer) (length : UInt16)
    (p : UInt32) : (allocated k s layer length p).pbufs p = fresh k layer length p :=
  Function.update_self ..

/-- No other one changes. -/
theorem pbufs_allocated_of_ne {k : Layout} {layer : PbufLayer} {length : UInt16} (h : p ≠ q) :
    (allocated k s layer length q).pbufs p = s.pbufs p := Function.update_of_ne h ..

theorem pbufAlloc_none {k : Layout} {layer : PbufLayer} {length : UInt16}
    (h : k.malloc s.live (k.pbufSize layer length) = none) :
    pbufAlloc k layer length s = some (none, s) := by
  have hmalloc : memMalloc k (k.pbufSize layer length) s = some (none, s) := by
    rw [memMalloc, bind_of_eq (read_apply ..), h]
    rfl
  rw [pbufAlloc, bind_of_eq hmalloc]
  rfl

theorem pbufAlloc_some {k : Layout} {layer : PbufLayer} {length : UInt16}
    (h : k.malloc s.live (k.pbufSize layer length) = some p) :
    pbufAlloc k layer length s = some (some p, allocated k s layer length p) := by
  have hmalloc : memMalloc k (k.pbufSize layer length) s = some (some p, { s with
      live := ⟨p, k.pbufSize layer length⟩ :: s.live
      ram := s.ram.acquire (Block.covers ⟨p, k.pbufSize layer length⟩) }) := by
    rw [memMalloc, bind_of_eq (read_apply ..), h]
    rfl
  rw [pbufAlloc, bind_of_eq hmalloc]
  rfl

section Allocated

variable {k : Layout} {layer : PbufLayer} {length : UInt16}
  (h : k.malloc s.live (k.pbufSize layer length) = some p)
include h

theorem owns_allocated {d : Nat} (hd : d + n ≤ k.pbufSize layer length) :
    Owns (allocated k s layer length p) (p + .ofNat d) n := by
  intro i hi
  have hcovers : Block.covers ⟨p, k.pbufSize layer length⟩ (p + .ofNat (d + i)) = true :=
    Block.covers_add (k.obtainable h).bound (lt_of_lt_of_le (Nat.add_lt_add_left hi d) hd)
  rw [UInt32.add_assoc, ← UInt32.ofNat_add]
  change (s.ram.owned _ || Block.covers _ _) = true
  rw [hcovers, Bool.or_true]

omit h in
theorem owned_allocated (k : Layout) (s : Net G) (layer : PbufLayer) (length : UInt16)
    (p : UInt32) : (allocated k s layer length p).ram.owned p = true := by
  change (s.ram.owned p || Block.covers _ p) = true
  rw [k.covers_self, Bool.or_true]

theorem not_owned_of_malloc (hs : InUse s) : s.ram.owned p = false := by
  rw [← Bool.not_eq_true]
  intro howned
  obtain ⟨c, hc, hcovers⟩ := hs p howned
  rw [(k.obtainable h).apart c hc p (k.covers_self layer length p)] at hcovers
  exact absurd hcovers (by simp)

theorem sent_allocated (hs : InUse s) : Sent k room s (allocated k s layer length p) where
  evolves := Watched.evolves_acquire ..
  static c hc a ha := by
    have hcovers : Block.covers ⟨p, k.pbufSize layer length⟩ a = false := by
      rw [← Bool.not_eq_true]
      intro hcovers
      exact absurd ha (by rw [(k.obtainable h).static c hc a hcovers]; simp)
    change (s.ram.owned a || Block.covers _ a) = s.ram.owned a
    rw [hcovers, Bool.or_false]
  links r hr := by
    have hne : r ≠ p := by
      rintro rfl
      rw [not_owned_of_malloc h hs] at hr
      exact absurd hr (by simp)
    rw [pbufs_allocated_of_ne hne]
  tidy _ := rfl

end Allocated

theorem InUse.allocated (hs : InUse s) (k : Layout) (layer : PbufLayer) (length : UInt16)
    (p : UInt32) : InUse (allocated k s layer length p) := by
  intro a ha
  rcases Bool.or_eq_true_iff.1 ha with hold | hnew
  · obtain ⟨c, hc, hcovers⟩ := hs a hold
    exact ⟨c, List.mem_cons_of_mem _ hc, hcovers⟩
  · exact ⟨_, List.mem_cons_self .., hnew⟩

/-- A buffer for the header becomes the head of a chain. -/
theorem run_pbufChain (hq : Loaded s p q base) (hne : q ≠ p) (hnext : (s.pbufs q).next = none)
    (hlen : (s.pbufs q).totLen.toNat + (s.pbufs p).totLen.toNat ≤ 1480) :
    Run (pbufChain q p) s fun _ s' ↦ s'.ram = s.ram ∧ Loaded s' p q base ∧
      ∀ r ≠ q, (s'.pbufs r).next = (s.pbufs r).next := by
  have hcat : catLoop q (s.pbufs p).totLen s = some (q, s) := by
    rw [catLoop, repeatM_unfold, bind_assoc', bind_of_eq (pbufAt_apply q s)]
    rw [hnext]
    rfl
  refine run_bind.2 (run_bind.2 (run_read.2 (run_bind.2 (.of_eq hcat ?_))))
  refine run_bind.2 (run_modify.2 (run_modify.2 (run_modify.2
    ⟨rfl, ⟨⟨?_, ?_, ?_, ?_⟩, hq.inUse, ?_, ?_, ?_⟩, ?_⟩)))
  · exact hq.owned
  · exact hq.header
  · simp [hne.symm, hq.last]
  · simp [hne]
  · simp [hne, hq.ram]
  · simp only [hne, ne_eq, not_false_eq_true, Function.update_of_ne, Function.update_self]
    rw [UInt16.toNat_add]
    exact (Nat.mod_le ..).trans hlen
  · simp [hne, hq.payload]
  · intro r hr
    by_cases hrp : r = p
    · subst hrp
      simp [hr]
    · simp [hr, hrp]

variable {kl : Layout}

/-- There is room for the header of UDP. -/
theorem headerPbuf_of_room (hram : (s.pbufs p).type = .ram)
    (hroom : ¬ ((s.pbufs p).moved UDP_HLEN).payload < p + .ofNat SIZEOF_STRUCT_PBUF) :
    headerPbuf kl p s = some (some p, lowered s p UDP_HLEN) := by
  have hpos : 0 < UDP_HLEN := by decide
  have happly := pbufHeader_apply hpos hram
  rw [if_neg hroom] at happly
  rw [headerPbuf, bind_of_eq happly]
  rfl

/-- Where the 42 bytes are in a buffer for the header. -/
def headerBase (k : Layout) (q : UInt32) : UInt32 :=
  q + .ofNat (k.memAlignSize (SIZEOF_STRUCT_PBUF + PbufLayer.ip.offset) - 34)

theorem payload_fresh (h : kl.malloc s.live (kl.pbufSize .ip UDP_HLEN.toUInt16) = some q) :
    (fresh kl .ip UDP_HLEN.toUInt16 q).payload = headerBase kl q + 34 := by
  have hbound : q.toNat + kl.pbufSize .ip UDP_HLEN.toUInt16 ≤ 2 ^ 32 := (kl.obtainable h).bound
  have hsize := (kl.le_memAlignSize (SIZEOF_STRUCT_PBUF + PbufLayer.ip.offset)).1
  have hfits : q.toNat + (SIZEOF_STRUCT_PBUF + PbufLayer.ip.offset) < 2 ^ 32 := by
    have hdata : 8 ≤ kl.memAlignSize 8 := (kl.le_memAlignSize 8).1
    change q.toNat + (kl.memAlignSize _ + kl.memAlignSize 8) ≤ 2 ^ 32 at hbound
    omega
  rw [fresh, headerBase, kl.memAlign_add (kl.obtainable h).aligned hfits, UInt32.add_assoc]
  change _ = q + (UInt32.ofNat _ + UInt32.ofNat 34)
  have hle : 34 ≤ kl.memAlignSize (SIZEOF_STRUCT_PBUF + PbufLayer.ip.offset) :=
    le_trans (by decide) hsize
  rw [← UInt32.ofNat_add, Nat.sub_add_cancel hle]

theorem owns_header (h : kl.malloc s.live (kl.pbufSize .ip UDP_HLEN.toUInt16) = some q) :
    Owns (allocated kl s .ip UDP_HLEN.toUInt16 q) (headerBase kl q) 42 := by
  refine owns_allocated h ?_
  have hsize : 50 ≤ kl.memAlignSize (SIZEOF_STRUCT_PBUF + PbufLayer.ip.offset) :=
    (kl.le_memAlignSize _).1
  have hdata : 8 ≤ kl.memAlignSize 8 := (kl.le_memAlignSize 8).1
  change _ ≤ kl.memAlignSize (SIZEOF_STRUCT_PBUF + PbufLayer.ip.offset) + kl.memAlignSize 8
  omega

theorem loaded_allocated (h : kl.malloc s.live (kl.pbufSize .ip UDP_HLEN.toUInt16) = some q)
    (hs : InUse s) (howned : s.ram.owned p = true) (hlast : (s.pbufs p).next = none) (hne : q ≠ p) :
    Loaded (allocated kl s .ip UDP_HLEN.toUInt16 q) p q (headerBase kl q) := by
  refine ⟨⟨?_, owned_allocated .., ?_, ?_⟩, hs.allocated _ _ _ _, ?_, ?_, ?_⟩
  · have hsent : Sent kl True s (allocated kl s .ip UDP_HLEN.toUInt16 q) := sent_allocated h hs
    exact hsent.evolves.owned p howned
  · rw [pbufs_allocated_of_ne hne.symm, hlast]
  · rw [pbufs_allocated]
    exact .inr (.inl rfl)
  · rw [pbufs_allocated]
    rfl
  · rw [pbufs_allocated]
    change UDP_HLEN.toUInt16.toNat ≤ 1480
    decide
  · rw [pbufs_allocated, payload_fresh h]

/-- There is no room for the header of UDP in `p`: it is put in a buffer of its own, if there is
one, where there is room for all headers. -/
theorem run_headerPbuf (hs : InUse s) (howned : s.ram.owned p = true)
    (hlast : (s.pbufs p).next = none) (hram : (s.pbufs p).type = .ram)
    (hlen : (s.pbufs p).totLen.toNat ≤ 255)
    (hroom : ((s.pbufs p).moved UDP_HLEN).payload < p + .ofNat SIZEOF_STRUCT_PBUF) :
    Run (headerPbuf kl p) s fun r s' ↦ Sent kl True s s' ∧
      ∀ q, r = some q → ∃ base, Loaded s' p q base ∧ Owns s' base 42 := by
  have hpos : 0 < UDP_HLEN := by decide
  have happly := pbufHeader_apply hpos hram
  rw [if_pos hroom] at happly
  refine run_bind.2 (.of_eq happly ?_)
  rw [if_pos (by decide)]
  cases hq : kl.malloc s.live (kl.pbufSize .ip UDP_HLEN.toUInt16) with
  | none =>
      refine run_bind.2 (.of_eq (pbufAlloc_none hq) (run_pure.2 ⟨.refl .., ?_⟩))
      intro q hsome
      exact absurd hsome (by simp)
  | some q =>
      have hnew := not_owned_of_malloc hq hs
      have hne : q ≠ p := by
        rintro rfl
        exact absurd howned (by simp [hnew])
      have hsent : Sent kl True s (allocated kl s .ip UDP_HLEN.toUInt16 q) := sent_allocated hq hs
      have hload := loaded_allocated hq hs howned hlast hne
      have howns := owns_header hq
      have hself := pbufs_allocated kl s .ip UDP_HLEN.toUInt16 q
      have hother : (allocated kl s .ip UDP_HLEN.toUInt16 q).pbufs p = s.pbufs p :=
        pbufs_allocated_of_ne hne.symm
      refine run_bind.2 (.of_eq (pbufAlloc_some hq) (run_bind.2 (run_read.2 ?_)))
      generalize allocated kl s .ip UDP_HLEN.toUInt16 q = s₁ at *
      rw [hother]
      refine run_bind.2 (run_when ?_ ?_)
      · intro _
        have hsum : (s₁.pbufs q).totLen.toNat + (s₁.pbufs p).totLen.toNat ≤ 1480 := by
          rw [hself, hother]
          change 8 + (s.pbufs p).totLen.toNat ≤ 1480
          omega
        refine Run.mono (run_pbufChain hload hne (by rw [hself]; rfl) hsum) ?_
        rintro _ s₂ ⟨hram₂, hload₂, hlinks⟩
        refine run_pure.2 ⟨hsent.extend hram₂ ?_, ?_⟩
        · intro r hr
          apply hlinks
          rintro rfl
          exact absurd hr (by simp [hnew])
        · rintro _ ⟨⟩
          refine ⟨headerBase kl q, hload₂, ?_⟩
          intro i hi
          rw [hram₂]
          exact howns i hi
      · intro _
        refine run_pure.2 ⟨hsent, ?_⟩
        rintro _ ⟨⟩
        exact ⟨headerBase kl q, hload, howns⟩

end Stm32F1.Lwip.Output
