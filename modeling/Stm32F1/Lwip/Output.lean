import Stm32F1.Lib.Watched
import Stm32F1.Lwip.Pbuf

/-!
# Sending a datagram

`udp_send`, `ip_output_if` and `etharp_output` of lwIP 1.4.1 each move the
payload pointer of a packet down with `pbuf_header`, and write their header where
it leads to then.

Memory is bytes at addresses of 32 bits.  It is watched: what is owned are the
blocks that were obtained from `mem_malloc`.  The fields of a `struct pbuf`, at
the beginning of its block, are kept by the address of the struct, and so are those of
a `struct udp_pcb`; the variables of lwIP and of the driver are no part of the memory.

Of lwIP the heap, `udp_bind`, the checksum of UDP, `ip_frag` and the functions that
resolve addresses are parameters, and of the driver what it answers.
-/

namespace Stm32F1.Lwip.Output

open Prog

def ERR_MEM : ErrT := -1
def ERR_BUF : ErrT := -2
def ERR_RTE : ErrT := -4
def ERR_VAL : ErrT := -6

def PBUF_LINK_HLEN : Nat := 14
def PBUF_IP_HLEN : Nat := 20
def PBUF_TRANSPORT_HLEN : Nat := 20
/-- `sizeof (struct pbuf)`, which every alignment divides. -/
def SIZEOF_STRUCT_PBUF : Nat := 16
def UDP_HLEN : Int16 := 8
def IP_HLEN : Int16 := 20
def SIZEOF_ETH_HDR : Int16 := 14
def IP_PROTO_UDP : UInt8 := 17
def UDP_FLAGS_NOCHKSUM : UInt8 := 0x01
def NETIF_FLAG_UP : UInt8 := 0x01
def NETIF_FLAG_BROADCAST : UInt8 := 0x02
def ARP_TABLE_SIZE : Nat := 10
def ARP_AGE_REREQUEST_USED : UInt8 := 228
def ETHTYPE_IP : UInt16 := 0x0800
def IPADDR_ANY : UInt32 := 0
/-- `netif->mtu`, as `low_level_init` sets it. -/
def MTU : UInt16 := 1500

/-! ## The data -/

inductive PbufType
  | ram | rom | ref | pool
deriving DecidableEq

inductive PbufLayer
  | transport | ip | link | raw

/-- Room for the header of the layer, and of those below it. -/
def PbufLayer.offset : PbufLayer → Nat
  | .transport => PBUF_LINK_HLEN + PBUF_IP_HLEN + PBUF_TRANSPORT_HLEN
  | .ip => PBUF_LINK_HLEN + PBUF_IP_HLEN
  | .link => PBUF_LINK_HLEN
  | .raw => 0

/-- `struct pbuf` -/
structure Pbuf where
  next : Option UInt32
  payload : UInt32
  totLen : UInt16
  len : UInt16
  type : PbufType
  flags : UInt8
  ref : UInt16

/-- `struct udp_pcb` -/
structure UdpPcb where
  localIp : UInt32
  remoteIp : UInt32
  tos : UInt8
  ttl : UInt8
  flags : UInt8
  localPort : UInt16
  remotePort : UInt16

/-- `struct eth_addr` -/
abbrev EthAddr := Fin 6 → UInt8

/-- `struct netif` -/
structure Netif where
  ipAddr : UInt32
  netmask : UInt32
  gw : UInt32
  hwaddr : EthAddr
  flags : UInt8

inductive EtharpState
  | empty | pending | stable | stableRerequesting | static
deriving DecidableEq

/-- `struct etharp_entry` -/
structure EtharpEntry where
  ipaddr : UInt32
  ethaddr : EthAddr
  state : EtharpState
  ctime : UInt8

/-- `state >= ETHARP_STATE_STABLE` -/
def EtharpEntry.isStable (e : EtharpEntry) : Bool :=
  e.state = .stable ∨ e.state = .stableRerequesting ∨ e.state = .static

/-- A block of memory. -/
structure Block where
  start : UInt32
  size : Nat

/-- The address is in the block. -/
def Block.covers (b : Block) (a : UInt32) : Bool :=
  b.start.toNat ≤ a.toNat ∧ a.toNat < b.start.toNat + b.size

/-- The memory and the variables, with those of the program that uses lwIP. -/
structure Net (G : Type) where
  ram : Watched UInt32 UInt8
  pbufs : UInt32 → Pbuf
  live : List Block
  pcbs : UInt32 → UdpPcb
  arpTable : Nat → EtharpEntry
  etharpCachedEntry : UInt8
  ipId : UInt16
  glob : G

variable {G : Type}

/-- `mem_malloc` gives a block: it is aligned, and shares nothing with the blocks in use nor with
the static variables. -/
structure Obtainable (memAlignment : Nat) (statics : List Block) (live : List Block) (b : Block) :
    Prop where
  bound : b.start.toNat + b.size ≤ 2 ^ 32
  aligned : b.start.toNat % memAlignment = 0
  apart : ∀ c ∈ live, ∀ a, b.covers a = true → c.covers a = false
  static : ∀ c ∈ statics, ∀ a, b.covers a = true → c.covers a = false

/-- Where the linker puts the static variables, and where `mem_malloc` finds a block. -/
structure Layout where
  memAlignment : Nat
  memAlignment_eq : memAlignment = 1 ∨ memAlignment = 2 ∨ memAlignment = 4
  statics : List Block
  malloc : List Block → Nat → Option UInt32
  obtainable : ∀ {live n a}, malloc live n = some a → Obtainable memAlignment statics live ⟨a, n⟩

/-- `LWIP_MEM_ALIGN_SIZE` -/
def Layout.memAlignSize (k : Layout) (size : Nat) : Nat :=
  (size + k.memAlignment - 1) / k.memAlignment * k.memAlignment

/-- `LWIP_MEM_ALIGN` -/
def Layout.memAlign (k : Layout) (addr : UInt32) : UInt32 := .ofNat (k.memAlignSize addr.toNat)

/-- So much is asked for a buffer of the type `PBUF_RAM`. -/
def Layout.pbufSize (k : Layout) (layer : PbufLayer) (length : UInt16) : Nat :=
  k.memAlignSize (SIZEOF_STRUCT_PBUF + layer.offset) + k.memAlignSize length.toNat

/-- What sending does to the memory.  No static variable is obtained, the links of buffers that are
owned stay, and if there was room for the headers nothing goes astray. -/
structure Sent (k : Layout) (room : Prop) (s s' : Net G) : Prop where
  evolves : s.ram.Evolves s'.ram
  static : ∀ c ∈ k.statics, ∀ a, c.covers a = true → s'.ram.owned a = s.ram.owned a
  links : ∀ p, s.ram.owned p = true → (s'.pbufs p).next = (s.pbufs p).next
  tidy : room → s'.ram.stray = s.ram.stray

/-- So many cells from an address on are owned. -/
def Owns (s : Net G) (a : UInt32) (n : Nat) : Prop := ∀ i < n, s.ram.owned (a + .ofNat i) = true

/-- The chain of buffers comes to an end. -/
def Ends (s : Net G) (p : Option UInt32) : Prop :=
  ∃ n, (fun p : Option UInt32 ↦ p.bind fun p ↦ (s.pbufs p).next)^[n] p = none

/-- What is owned is in use. -/
def InUse (s : Net G) : Prop := ∀ a, s.ram.owned a = true → ∃ c ∈ s.live, c.covers a = true

/-- lwIP, but for what is modelled here.  `etharp_request` works on buffers of its own, which are
none of those in use; `etharp_query` may also write the header of the packet that it is given. -/
structure Stack (G : Type) extends Layout where
  netifList : List Netif
  netifDefault : Option Netif
  udpBind : UdpPcb → ErrT × UdpPcb
  inetChksumPseudo : Net G → UInt32 → UInt32 → UInt32 → UInt8 → UInt16 → UInt16
  ipFrag : UInt32 → Netif → UInt32 → Prog (Net G) ErrT
  linkoutput : Net G → UInt32 → ErrT
  etharpRequest : Netif → UInt32 → Prog (Net G) ErrT
  etharpQuery : Netif → UInt32 → UInt32 → Prog (Net G) ErrT
  request_sent : ∀ netif ipaddr s, InUse s → Run (etharpRequest netif ipaddr) s fun _ s' ↦
    Sent toLayout True s s' ∧ ∀ p, s.ram.owned p = true → s'.pbufs p = s.pbufs p
  query_sent : ∀ netif ipaddr q s, InUse s → Ends s (some q) →
    Run (etharpQuery netif ipaddr q) s fun _ s' ↦ Sent toLayout (Owns s (s.pbufs q).payload 14) s s'

/-! ## `mem.c` and `pbuf.c` -/

def pbufAt (p : UInt32) : Prog (Net G) Pbuf := Prog.read fun s ↦ s.pbufs p

def setPbuf (p : UInt32) (f : Pbuf → Pbuf) : Prog (Net G) Unit :=
  Prog.modify fun s ↦ { s with pbufs := Function.update s.pbufs p (f (s.pbufs p)) }

/-- `mem_malloc` -/
def memMalloc (k : Layout) (size : Nat) : Prog (Net G) (Option UInt32) := do
  let live ← Prog.read fun s ↦ s.live
  match k.malloc live size with
  | some p => do
      Prog.modify fun s ↦ { s with
        live := ⟨p, size⟩ :: s.live
        ram := s.ram.acquire (Block.covers ⟨p, size⟩) }
      pure (some p)
  | none => pure none

/-- `mem_free`, and `memp_free` -/
def memFree (p : UInt32) : Prog (Net G) Unit :=
  Prog.modify fun s ↦ { s with live := s.live.filter fun b ↦ b.start ≠ p }

/-- `pbuf_alloc (layer, length, PBUF_RAM)` -/
def pbufAlloc (k : Layout) (layer : PbufLayer) (length : UInt16) :
    Prog (Net G) (Option UInt32) := do
  let p ← memMalloc k (k.pbufSize layer length)
  match p with
  | some p => do
      setPbuf p fun _ ↦
        { next := none
          payload := k.memAlign (p + .ofNat (SIZEOF_STRUCT_PBUF + layer.offset))
          totLen := length
          len := length
          type := .ram
          flags := 0
          ref := 1 }
      pure (some p)
  | none => pure none

/-- The payload pointer is moved down, and the lengths grow. -/
def Pbuf.moved (b : Pbuf) (headerSizeIncrement : Int16) : Pbuf :=
  { b with
    payload := b.payload - headerSizeIncrement.toInt32.toUInt32
    len := b.len + headerSizeIncrement.toUInt16
    totLen := b.totLen + headerSizeIncrement.toUInt16 }

/-- `pbuf_header` -/
def pbufHeader (p : UInt32) (headerSizeIncrement : Int16) : Prog (Net G) UInt8 := do
  if headerSizeIncrement = 0 then pure 0
  else do
    let b ← pbufAt p
    let moved := setPbuf p fun b ↦ b.moved headerSizeIncrement
    if headerSizeIncrement < 0 ∧ ¬ (-headerSizeIncrement).toUInt16 ≤ b.len then pure 1
    else if b.type = .ram ∨ b.type = .pool then
      if (b.moved headerSizeIncrement).payload < p + .ofNat SIZEOF_STRUCT_PBUF then pure 1
      else do
        moved
        pure 0
    else if headerSizeIncrement < 0 then do
      moved
      pure 0
    else pure 1

/-- The loop of `pbuf_free`. -/
def pbufFreeLoop (p : Option UInt32) : Prog (Net G) Unit :=
  repeatM (fun p ↦
    match p with
    | some p => do
        setPbuf p fun b ↦ { b with ref := b.ref - 1 }
        let b ← pbufAt p
        if b.ref = 0 then do
          memFree p
          pure (.inl b.next)
        else pure (.inl none)
    | none => pure (.inr ())) p

/-- `pbuf_free` -/
def pbufFree (p : UInt32) : Prog (Net G) Unit := pbufFreeLoop (some p)

/-- `pbuf_ref` -/
def pbufRef (p : UInt32) : Prog (Net G) Unit := setPbuf p fun b ↦ { b with ref := b.ref + 1 }

/-- The loop of `pbuf_cat`: the last buffer of the chain, the lengths of the others being raised. -/
def catLoop (p : UInt32) (totLen : UInt16) : Prog (Net G) UInt32 :=
  repeatM (fun p ↦ do
    let b ← pbufAt p
    match b.next with
    | some q => do
        setPbuf p fun b ↦ { b with totLen := b.totLen + totLen }
        pure (.inl q)
    | none => pure (.inr p)) p

/-- `pbuf_cat` -/
def pbufCat (h t : UInt32) : Prog (Net G) Unit := do
  let tail ← pbufAt t
  let p ← catLoop h tail.totLen
  setPbuf p fun b ↦ { b with totLen := b.totLen + tail.totLen }
  setPbuf p fun b ↦ { b with next := some t }

/-- `pbuf_chain` -/
def pbufChain (h t : UInt32) : Prog (Net G) Unit := do
  pbufCat h t
  pbufRef t

/-! ## Headers -/

/-- The cells from an address on, and the bytes that are stored there. -/
def field (a : UInt32) : List UInt8 → List (UInt32 × UInt8)
  | [] => []
  | b :: bs => (a, b) :: field (a + 1) bs

def store (l : List (UInt32 × UInt8)) : Prog (Net G) Unit :=
  Prog.modify fun s ↦ { s with ram := s.ram.writeAll l }

/-- A word as it lies in memory. -/
def le16 (x : UInt16) : List UInt8 := [x.toUInt8, (x >>> 8).toUInt8]

def le32 (x : UInt32) : List UInt8 :=
  [x.toUInt8, (x >>> 8).toUInt8, (x >>> 16).toUInt8, (x >>> 24).toUInt8]

def htons (x : UInt16) : UInt16 := (x <<< 8) ||| (x >>> 8)

/-- `PP_HTONL` -/
def ppHtonl (x : UInt32) : UInt32 :=
  ((x &&& 0xff) <<< 24) ||| ((x &&& 0xff00) <<< 8) ||| ((x &&& 0xff0000) >>> 8) |||
    ((x &&& 0xff000000) >>> 24)

/-- `LWIP_MAKE_U16` -/
def lwipMakeU16 (a b : UInt8) : UInt32 := (a.toUInt32 <<< 8) ||| b.toUInt32

/-! ## `ip_addr.h`, `ip_addr.c` -/

def ipAddrNetcmp (addr1 addr2 mask : UInt32) : Bool := addr1 &&& mask = addr2 &&& mask

def ipAddrIsmulticast (addr : UInt32) : Bool :=
  addr &&& ppHtonl 0xf0000000 = ppHtonl 0xe0000000

def ipAddrIslinklocal (addr : UInt32) : Bool :=
  addr &&& ppHtonl 0xffff0000 = ppHtonl 0xa9fe0000

/-- `ip4_addr_isbroadcast` -/
def ip4AddrIsbroadcast (addr : UInt32) (netif : Netif) : Bool :=
  if ~~~addr = IPADDR_ANY ∨ addr = IPADDR_ANY then true
  else if netif.flags &&& NETIF_FLAG_BROADCAST = 0 then false
  else if addr = netif.ipAddr then false
  else ipAddrNetcmp addr netif.ipAddr netif.netmask ∧
    addr &&& ~~~netif.netmask = 0xffffffff &&& ~~~netif.netmask

/-! ## `etharp.c` -/

def ethbroadcast : EthAddr := fun _ ↦ 0xff

/-- The address of a multicast group. -/
def mcastaddr (ipaddr : UInt32) : EthAddr :=
  ![0x01, 0x00, 0x5e, (ipaddr >>> 8).toUInt8 &&& 0x7f, (ipaddr >>> 16).toUInt8,
    (ipaddr >>> 24).toUInt8]

/-- The header of Ethernet, in the order in which it is written. -/
def ethFields (ethhdr : UInt32) (src dst : EthAddr) : List (UInt32 × UInt8) :=
  field (ethhdr + 0) (List.ofFn dst) ++ field (ethhdr + 6) (List.ofFn src) ++
    field (ethhdr + 12) (le16 (htons ETHTYPE_IP))

/-- `etharp_send_ip` -/
def etharpSendIp (k : Stack G) (p : UInt32) (src dst : EthAddr) : Prog (Net G) ErrT := do
  let b ← pbufAt p
  store (ethFields b.payload src dst)
  Prog.read fun s ↦ k.linkoutput s p

/-- An entry that is about to expire is requested again. -/
def rerequest (k : Stack G) (netif : Netif) (arpIdx : Nat) : Prog (Net G) Unit := do
  let e ← Prog.read fun s ↦ s.arpTable arpIdx
  if e.state = .stable ∧ e.ctime ≥ ARP_AGE_REREQUEST_USED then do
    let err ← k.etharpRequest netif e.ipaddr
    when (err = ERR_OK) (Prog.modify fun s ↦ { s with
      arpTable := Function.update s.arpTable arpIdx
        { s.arpTable arpIdx with state := .stableRerequesting } })
  else pure ()

/-- `etharp_output_to_arp_index` -/
def etharpOutputToArpIndex (k : Stack G) (netif : Netif) (q : UInt32) (arpIdx : Nat) :
    Prog (Net G) ErrT := do
  rerequest k netif arpIdx
  let e ← Prog.read fun s ↦ s.arpTable arpIdx
  etharpSendIp k q netif.hwaddr e.ethaddr

/-- Where a packet for one host is sent: to the host, or to the gateway if there is one. -/
def nextHop (netif : Netif) (ipaddr : UInt32) : Option UInt32 :=
  if ¬ ipAddrNetcmp ipaddr netif.ipAddr netif.netmask ∧ ¬ ipAddrIslinklocal ipaddr then
    if netif.gw ≠ IPADDR_ANY then some netif.gw else none
  else some ipaddr

/-- The end of `etharp_output`, for a packet for one host. -/
def etharpUnicast (k : Stack G) (netif : Netif) (q dstAddr : UInt32) : Prog (Net G) ErrT := do
  let s ← Prog.read fun s ↦ s
  let found (i : Nat) : Bool := (s.arpTable i).isStable ∧ dstAddr = (s.arpTable i).ipaddr
  if found s.etharpCachedEntry.toNat then etharpOutputToArpIndex k netif q s.etharpCachedEntry.toNat
  else
    match (List.range ARP_TABLE_SIZE).find? found with
    | some i => do
        Prog.modify fun s ↦ { s with etharpCachedEntry := i.toUInt8 }
        etharpOutputToArpIndex k netif q i
    | none => k.etharpQuery netif dstAddr q

/-- `etharp_output` -/
def etharpOutput (k : Stack G) (netif : Netif) (q ipaddr : UInt32) : Prog (Net G) ErrT := do
  let r ← pbufHeader q SIZEOF_ETH_HDR
  if r ≠ 0 then pure ERR_BUF
  else if ip4AddrIsbroadcast ipaddr netif then etharpSendIp k q netif.hwaddr ethbroadcast
  else if ipAddrIsmulticast ipaddr then etharpSendIp k q netif.hwaddr (mcastaddr ipaddr)
  else
    match nextHop netif ipaddr with
    | some dstAddr => etharpUnicast k netif q dstAddr
    | none => pure ERR_RTE

/-! ## `ip.c` -/

/-- `netif_is_up` -/
def netifIsUp (netif : Netif) : Bool := netif.flags &&& NETIF_FLAG_UP ≠ 0

/-- `ip_route` -/
def ipRoute (k : Stack G) (dest : UInt32) : Option Netif :=
  match k.netifList.find? fun netif ↦
    netifIsUp netif && ipAddrNetcmp dest netif.ipAddr netif.netmask with
  | some netif => some netif
  | none => k.netifDefault.filter netifIsUp

/-- The halves of a word, added. -/
def halves (x : UInt32) : UInt32 := (x &&& (0xffff : UInt32)) + (x >>> 16)

/-- The checksum of the header, as it is summed up. -/
def ipChksum (proto ttl tos : UInt8) (src dest : UInt32) (len id : UInt16) : UInt16 :=
  let chkSum := lwipMakeU16 proto ttl + halves dest + lwipMakeU16 tos 0x45 +
    (htons len).toUInt32 + (htons id).toUInt32 + halves src
  let chkSum := halves chkSum
  let chkSum := (chkSum >>> 16) + chkSum
  (~~~chkSum).toUInt16

/-- The header of IP, in the order in which it is written. -/
def ipFields (iphdr : UInt32) (proto ttl tos : UInt8) (src dest : UInt32) (len id : UInt16) :
    List (UInt32 × UInt8) :=
  field (iphdr + 8) [ttl] ++ field (iphdr + 9) [proto] ++ field (iphdr + 16) (le32 dest) ++
    field (iphdr + 0) [0x45] ++ field (iphdr + 1) [tos] ++ field (iphdr + 2) (le16 (htons len)) ++
    field (iphdr + 6) (le16 0) ++ field (iphdr + 4) (le16 (htons id)) ++
    field (iphdr + 12) (le32 src) ++
    field (iphdr + 10) (le16 (ipChksum proto ttl tos src dest len id))

/-- `ip_id` before it is counted up. -/
def nextIpId : Prog (Net G) UInt16 := Prog.act fun s ↦ (s.ipId, { s with ipId := s.ipId + 1 })

/-- `ip_output_if` -/
def ipOutputIf (k : Stack G) (p src dest : UInt32) (ttl tos proto : UInt8) (netif : Netif) :
    Prog (Net G) ErrT := do
  let r ← pbufHeader p IP_HLEN
  if r ≠ 0 then pure ERR_BUF
  else do
    let b ← pbufAt p
    let id ← nextIpId
    let src := if src = IPADDR_ANY then netif.ipAddr else src
    store (ipFields b.payload proto ttl tos src dest b.totLen id)
    if MTU ≠ 0 ∧ b.totLen > MTU then k.ipFrag p netif dest
    else etharpOutput k netif p dest

/-! ## `udp.c` -/

/-- The ports, and a checksum of zero. -/
def udpPorts (udphdr : UInt32) (src dest : UInt16) : List (UInt32 × UInt8) :=
  field (udphdr + 0) (le16 (htons src)) ++ field (udphdr + 2) (le16 (htons dest)) ++
    field (udphdr + 6) (le16 0)

/-- The port is chosen here if the PCB has none. -/
def bindUnbound (k : Stack G) (pcb : UInt32) : Prog (Net G) ErrT := do
  let b ← Prog.read fun s ↦ s.pcbs pcb
  if b.localPort = 0 then do
    Prog.modify fun s ↦ { s with pcbs := Function.update s.pcbs pcb (k.udpBind b).2 }
    pure (k.udpBind b).1
  else pure ERR_OK

/-- The buffer for the header: the one that is given if there is room, else one in front of it. -/
def headerPbuf (k : Layout) (p : UInt32) : Prog (Net G) (Option UInt32) := do
  let r ← pbufHeader p UDP_HLEN
  if r ≠ 0 then do
    let q ← pbufAlloc k .ip UDP_HLEN.toUInt16
    match q with
    | some q => do
        let b ← pbufAt p
        when (b.totLen ≠ 0) (pbufChain q p)
        pure (some q)
    | none => pure none
  else pure (some p)

/-- The address that the datagram comes from, if the PCB has one that it may come from. -/
def sourceIp (b : UdpPcb) (netif : Netif) : Option UInt32 :=
  if b.localIp = IPADDR_ANY then some netif.ipAddr
  else if b.localIp = netif.ipAddr then some b.localIp
  else none

/-- The length, and the checksum. -/
def lenAndChksum (k : Stack G) (b : UdpPcb) (q udphdr srcIp dstIp : UInt32) :
    Prog (Net G) Unit := do
  let c ← pbufAt q
  store (field (udphdr + 4) (le16 (htons c.totLen)))
  if b.flags &&& UDP_FLAGS_NOCHKSUM = 0 then do
    let udpchksum ← Prog.read fun s ↦ k.inetChksumPseudo s q srcIp dstIp IP_PROTO_UDP c.totLen
    store (field (udphdr + 6) (le16 (if udpchksum = 0 then 0xffff else udpchksum)))
  else pure ()

/-- The end of `udp_sendto_if`, from where the ports are in the header. -/
def udpDatagram (k : Stack G) (b : UdpPcb) (p q udphdr dstIp : UInt32) (netif : Netif) :
    Prog (Net G) ErrT :=
  match sourceIp b netif with
  | some srcIp => do
      lenAndChksum k b q udphdr srcIp dstIp
      let err ← ipOutputIf k q srcIp dstIp b.ttl b.tos IP_PROTO_UDP netif
      when (q ≠ p) (pbufFree q)
      pure err
  | none => do
      when (q ≠ p) (pbufFree q)
      pure ERR_VAL

/-- What `udp_sendto_if` does once it has `q` for the header. -/
def udpOutput (k : Stack G) (pcb p q dstIp : UInt32) (dstPort : UInt16) (netif : Netif) :
    Prog (Net G) ErrT := do
  let c ← pbufAt q
  let b ← Prog.read fun s ↦ s.pcbs pcb
  store (udpPorts c.payload b.localPort dstPort)
  udpDatagram k b p q c.payload dstIp netif

/-- `udp_sendto_if` -/
def udpSendtoIf (k : Stack G) (pcb p dstIp : UInt32) (dstPort : UInt16) (netif : Netif) :
    Prog (Net G) ErrT := do
  let err ← bindUnbound k pcb
  if err ≠ ERR_OK then pure err
  else do
    let q ← headerPbuf k.toLayout p
    match q with
    | some q => udpOutput k pcb p q dstIp dstPort netif
    | none => pure ERR_MEM

/-- `udp_sendto` -/
def udpSendto (k : Stack G) (pcb p dstIp : UInt32) (dstPort : UInt16) : Prog (Net G) ErrT :=
  match ipRoute k dstIp with
  | some netif => udpSendtoIf k pcb p dstIp dstPort netif
  | none => pure ERR_RTE

/-- `udp_send` -/
def udpSend (k : Stack G) (pcb p : UInt32) : Prog (Net G) ErrT := do
  let b ← Prog.read fun s ↦ s.pcbs pcb
  udpSendto k pcb p b.remoteIp b.remotePort

end Stm32F1.Lwip.Output
