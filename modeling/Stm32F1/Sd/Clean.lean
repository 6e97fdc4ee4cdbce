import Stm32F1.Lib.Calls
import Stm32F1.Lib.Leaves
import Stm32F1.Sd.Driver

/-!
# Coming back clean

Whatever is on the bus, and whatever it answers, the functions of the driver and
of the disk layer return: every loop is bounded.  They let go of the card, keep
the bus at high speed once it is, and write no memory but that of the blocks that
were asked for.

The card is an arbitrary device, which may answer by all that it was ever sent.
-/

namespace Stm32F1.Sd

open Prog Mcu

/-! ## The chip-select pin -/

/-- A device whose chip-select pin can be seen. -/
structure Pinned (δ : Type) where
  high : Bool
  dev : δ

variable {δ : Type} [SpiDevice δ]

instance Pinned.instSpiDevice : SpiDevice (Pinned δ) where
  cs level d := ⟨level, SpiDevice.cs level d.dev⟩
  exchange b d := ((SpiDevice.exchange b d.dev).1, { d with dev := (SpiDevice.exchange b d.dev).2 })

/-! ## Functions that write nothing -/

/-- The memory and the variables of the driver. -/
def own {δ : Type} (s : Mcu δ SdVars) : (Nat → UInt8) × SdVars := (s.mem, s.glob)

section Leaving

theorem leaves_readWriteByte (b : UInt8) :
    Leaves own (readWriteByte b : Prog (Mcu δ SdVars) UInt8) :=
  .act fun _ ↦ rfl

theorem leaves_chipSelect (level : Bool) :
    Leaves own (chipSelect level : Prog (Mcu δ SdVars) Unit) :=
  .modify fun _ ↦ rfl

theorem leaves_sdWaitReady : Leaves own (sdWaitReady : Prog (Mcu δ SdVars) UInt8) :=
  ((leaves_readWriteByte 0xFF).poll _ _).bind fun _ ↦ .pure _

theorem leaves_sdDisSelect : Leaves own (sdDisSelect : Prog (Mcu δ SdVars) Unit) :=
  (leaves_chipSelect true).bind fun _ ↦ (leaves_readWriteByte 0xFF).bind fun _ ↦ .pure ()

theorem leaves_sdSelect : Leaves own (sdSelect : Prog (Mcu δ SdVars) UInt8) := by
  refine (leaves_chipSelect false).bind fun _ ↦ leaves_sdWaitReady.bind fun r ↦ ?_
  exact .ite (.pure 0) (leaves_sdDisSelect.bind fun _ ↦ .pure 1)

theorem leaves_sendAll (bs : List UInt8) : Leaves own (sendAll bs : Prog (Mcu δ SdVars) Unit) := by
  induction bs with
  | nil => exact .pure ()
  | cons b bs ih => exact (leaves_readWriteByte b).bind fun _ ↦ ih

theorem leaves_sdSendCmd (cmd : UInt8) (arg : UInt32) (crc : UInt8) :
    Leaves own (sdSendCmd cmd arg crc : Prog (Mcu δ SdVars) UInt8) := by
  refine leaves_sdDisSelect.bind fun _ ↦ leaves_sdSelect.bind fun r ↦ .ite (.pure 0xFF) ?_
  refine (leaves_sendAll _).bind fun _ ↦ Leaves.bind (.when ?_) fun _ ↦ ?_
  · exact (leaves_readWriteByte 0xFF).bind fun _ ↦ .pure ()
  · exact ((leaves_readWriteByte 0xFF).poll _ _).bind fun _ ↦ .pure _

theorem leaves_sdGetResponse (response : UInt8) :
    Leaves own (sdGetResponse response : Prog (Mcu δ SdVars) UInt8) :=
  ((leaves_readWriteByte 0xFF).poll _ _).bind fun _ ↦ .pure _

theorem leaves_sdSendBlock (buf : Nat) (cmd : UInt8) :
    Leaves own (sdSendBlock buf cmd : Prog (Mcu δ SdVars) UInt8) := by
  have hbyte (b : UInt8) : Leaves own (readWriteByte b : Prog (Mcu δ SdVars) UInt8) :=
    leaves_readWriteByte b
  refine leaves_sdWaitReady.bind fun r ↦ .ite (.pure 1) ((hbyte cmd).bind fun _ ↦ .ite ?_ (.pure 0))
  refine Leaves.bind (.forRange (fun t ↦ ?_) 512) fun _ ↦ ?_
  · exact Leaves.bind (.read _) fun b ↦ (hbyte b).bind fun _ ↦ .pure ()
  · exact (hbyte 0xFF).bind fun _ ↦ (hbyte 0xFF).bind fun _ ↦ (hbyte 0xFF).bind fun _ ↦ .pure _

theorem leaves_sdPreErase (cnt : UInt8) :
    Leaves own (sdPreErase cnt : Prog (Mcu δ SdVars) Unit) := by
  refine Leaves.bind (.read _) fun _ ↦ .ite ?_ (.pure ())
  exact (leaves_sdSendCmd _ _ _).bind fun _ ↦ (leaves_sdSendCmd _ _ _).bind fun _ ↦ .pure ()

/-- The blocks of `SD_WriteDisk`, and the stop token. -/
theorem leaves_sendBlocks (buf : Nat) (n : Nat) : Leaves own (do
    let _ ← doWhileOk (fun buf ↦ sdSendBlock buf 0xFC) (fun buf ↦ buf + 512) buf n
    sdSendBlock 0 0xFD : Prog (Mcu δ SdVars) UInt8) :=
  (Leaves.doWhileOk (fun buf ↦ leaves_sdSendBlock buf 0xFC) _ _ _).bind fun _ ↦
    leaves_sdSendBlock 0 0xFD

omit [SpiDevice δ] in
/-- The functions of `SD_Initialize` assign to the variables of the driver, but write no memory. -/
theorem leaves_mem {α : Type} {p : Prog (Mcu δ SdVars) α} (h : Leaves own p) : Leaves Mcu.mem p :=
  h.less Prod.fst

omit [SpiDevice δ] in
theorem leaves_assign (f : SdVars → SdVars) :
    Leaves Mcu.mem (assign f : Prog (Mcu δ SdVars) Unit) :=
  .modify fun _ ↦ rfl

section Mem

variable {p : Prog (Mcu δ SdVars) UInt8}

omit [SpiDevice δ] in
theorem leaves_retrying (h : Leaves Mcu.mem p) (stop : UInt8) (retry : UInt16) :
    Leaves Mcu.mem (retrying p stop retry) :=
  (h.poll _ _).bind fun _ ↦ .pure _

theorem leaves_readFour : Leaves Mcu.mem (readFour : Prog (Mcu δ SdVars) _) := by
  have hbyte : Leaves Mcu.mem (readWriteByte 0xFF : Prog (Mcu δ SdVars) UInt8) :=
    leaves_mem (leaves_readWriteByte 0xFF)
  exact hbyte.bind fun _ ↦ hbyte.bind fun _ ↦ hbyte.bind fun _ ↦ hbyte.bind fun _ ↦ .pure _

theorem leaves_sendCmd (cmd : UInt8) (arg : UInt32) (crc : UInt8) :
    Leaves Mcu.mem (sdSendCmd cmd arg crc : Prog (Mcu δ SdVars) UInt8) :=
  leaves_mem (leaves_sdSendCmd cmd arg crc)

theorem leaves_sdSendAcmd41 (arg : UInt32) :
    Leaves Mcu.mem (sdSendAcmd41 arg : Prog (Mcu δ SdVars) UInt8) :=
  (leaves_sendCmd CMD55 0 0x01).bind fun _ ↦ leaves_sendCmd CMD41 arg 0x01

theorem leaves_sdInitV2 : Leaves Mcu.mem (sdInitV2 : Prog (Mcu δ SdVars) UInt8) := by
  refine leaves_readFour.bind fun _ ↦ .ite ?_ (.pure _)
  refine (leaves_retrying (leaves_sdSendAcmd41 _) _ _).bind fun _ ↦ .ite (.pure _) ?_
  refine (leaves_sendCmd CMD58 0 0x01).bind fun _ ↦ .ite ?_ (.pure _)
  exact leaves_readFour.bind fun _ ↦ (leaves_assign _).bind fun _ ↦ .pure _

theorem leaves_sdInitV1 : Leaves Mcu.mem (sdInitV1 : Prog (Mcu δ SdVars) UInt8) := by
  refine (leaves_sdSendAcmd41 0).bind fun _ ↦ Leaves.bind (.ite ?_ ?_) fun _ ↦ .ite ?_ ?_
  · exact (leaves_assign _).bind fun _ ↦ leaves_retrying (leaves_sdSendAcmd41 0) _ _
  · exact (leaves_assign _).bind fun _ ↦ leaves_retrying (leaves_sendCmd CMD1 0 0x01) _ _
  · exact (leaves_assign _).bind fun _ ↦ .pure _
  · refine (leaves_sendCmd CMD16 512 0x01).bind fun _ ↦ ?_
    exact (leaves_assign _).when.bind fun _ ↦ .pure _

end Mem

end Leaving

/-! ## What is written -/

/-- Nothing but so many bytes from an address on has changed. -/
def Within (region : Nat × Nat) (m m' : Nat → UInt8) : Prop :=
  ∀ a, a < region.1 ∨ region.1 + region.2 ≤ a → m' a = m a

section Within

variable {m m' m'' : Nat → UInt8} {buf n k : Nat}

theorem Within.refl (region : Nat × Nat) (m : Nat → UInt8) : Within region m m := fun _ _ ↦ rfl

/-- More bytes behind those. -/
theorem Within.append (h : Within (buf, n) m m') (h' : Within (buf + n, k) m' m'') :
    Within (buf, n + k) m m'' := by
  rintro a (ha | ha)
  · exact (h' a (.inl (Nat.lt_add_right n ha))).trans (h a (.inl ha))
  · change buf + (n + k) ≤ a at ha
    exact (h' a (.inr (by change buf + n + k ≤ a; omega))).trans
      (h a (.inr (by change buf + n ≤ a; omega)))

theorem Within.mono (h : Within (buf, n) m m') (hle : n ≤ k) : Within (buf, k) m m' := by
  rintro a (ha | ha)
  · exact h a (.inl ha)
  · exact h a (.inr ((Nat.add_le_add_left hle buf).trans ha))

theorem within_store (m : Nat → UInt8) (a : Nat) (b : UInt8) :
    Within (a, 1) m (Function.update m a b) := by
  rintro a' (ha | ha)
  · exact Function.update_of_ne (Nat.ne_of_lt ha) ..
  · exact Function.update_of_ne (Nat.ne_of_gt ha) ..

end Within

variable {m : Nat → UInt8} {v : SdVars}

/-- The variables of the driver, and what was written since the memory was `m`. -/
structure Wrote (m : Nat → UInt8) (v : SdVars) (region : Nat × Nat) (s : Mcu δ SdVars) : Prop where
  glob : s.glob = v
  mem : Within region m s.mem

omit [SpiDevice δ] in
/-- A function that writes nothing adds nothing. -/
theorem Wrote.leave {α : Type} {p : Prog (Mcu δ SdVars) α} {region : Nat × Nat} {s : Mcu δ SdVars}
    (h : Wrote m v region s) (hp : Leaves own p) : Run p s fun _ s' ↦ Wrote m v region s' := by
  refine (hp s).mono ?_
  intro _ s' hs'
  obtain ⟨hmem, hglob⟩ := Prod.mk.inj hs'
  exact ⟨hglob.trans h.glob, hmem ▸ h.mem⟩

/-- **`SD_RecvData`** writes the bytes that it was asked for. -/
theorem Wrote.sdRecvData {buf n : Nat} {s : Mcu δ SdVars} (h : Wrote m v (buf, n) s)
    (len : UInt16) :
    Run (sdRecvData (buf + n) len) s fun _ s' ↦ Wrote m v (buf, n + len.toNat) s' := by
  have hgrow {s : Mcu δ SdVars} (hs : Wrote m v (buf, n) s) : Wrote m v (buf, n + len.toNat) s :=
    ⟨hs.glob, hs.mem.mono (Nat.le_add_right ..)⟩
  refine (h.leave (leaves_sdGetResponse 0xFE)).bind ?_
  intro r s₁ h₁
  rw [run_ite]
  split
  · exact run_pure.2 (hgrow h₁)
  refine Run.bind (R := fun _ s' ↦ Wrote m v (buf, n + len.toNat) s') ?_ ?_
  · refine run_forRange (fun i s' ↦ Wrote m v (buf, n + i) s') ?_ h₁
    intro i s' _ hs'
    refine (hs'.leave (leaves_readWriteByte 0xFF)).bind ?_
    intro b s'' hs''
    have hstored : Within (buf + (n + i), 1) s''.mem (Function.update s''.mem (buf + n + i) b) := by
      rw [← Nat.add_assoc]
      exact within_store s''.mem (buf + n + i) b
    exact run_modify.2 ⟨hs''.glob, hs''.mem.append hstored⟩
  · intro _ s₂ h₂
    refine (h₂.leave (leaves_readWriteByte 0xFF)).bind ?_
    intro _ s₃ h₃
    refine (h₃.leave (leaves_readWriteByte 0xFF)).bind ?_
    intro _ s₄ h₄
    exact run_pure.2 h₄

/-- What a call that gives the card up leaves behind. -/
theorem Wrote.sdDisSelect {α : Type} {region : Nat × Nat} {s : Mcu (Pinned δ) SdVars}
    (h : Wrote m v region s) (r : α) :
    Run (sdDisSelect >>= fun _ ↦ pure r) s fun _ s' ↦ s'.dev.high = true ∧ Wrote m v region s' :=
  .of_eq rfl ⟨rfl, h.glob, h.mem⟩

/-- A command, and a block of data if it is answered with 0. -/
theorem Wrote.command {buf n : Nat} {s : Mcu δ SdVars} (h : Wrote m v (buf, 0) s) (cmd crc : UInt8)
    (arg : UInt32) {p : Prog (Mcu δ SdVars) UInt8}
    (hp : ∀ s, Wrote m v (buf, 0) s → Run p s fun _ s' ↦ Wrote m v (buf, n) s') :
    Run (do
      let r1 ← sdSendCmd cmd arg crc
      if r1 = 0 then p else pure r1) s fun _ s' ↦ Wrote m v (buf, n) s' := by
  refine (h.leave (leaves_sdSendCmd cmd arg crc)).bind ?_
  intro r1 s₁ h₁
  rw [run_ite]
  split
  · exact hp s₁ h₁
  · exact run_pure.2 ⟨h₁.glob, h₁.mem.mono (Nat.zero_le n)⟩

/-! ## The functions of the driver -/

section Driver

variable {s : Mcu (Pinned δ) SdVars} {buf : Nat}

/-- **`SD_ReadDisk`** writes the blocks that it was asked for. -/
theorem run_sdReadDisk_clean (sector : UInt32) {cnt : UInt8} (hcnt : cnt ≠ 0)
    (h : Wrote m v (buf, 0) s) : Run (sdReadDisk buf sector cnt) s fun _ s' ↦
      s'.dev.high = true ∧ Wrote m v (buf, 512 * cnt.toNat) s' := by
  have hblock (n : Nat) (s : Mcu (Pinned δ) SdVars) (hs : Wrote m v (buf, n) s) :
      Run (sdRecvData (buf + n) 512) s fun _ s' ↦ Wrote m v (buf, n + 512) s' := hs.sdRecvData 512
  refine run_bind.2 (run_read.2 ?_)
  rw [run_ite]
  split
  · rename_i hone
    have hregion : 512 * cnt.toNat = 512 := by
      rw [hone]
      rfl
    rw [hregion, ← bind_assoc']
    have hcommand := h.command CMD17 0x01 (if s.glob.sdType ≠ SD_TYPE_V2HC then sector <<< 9
      else sector) (hblock 0)
    refine hcommand.bind ?_
    intro r1 s₁ h₁
    exact h₁.sdDisSelect r1
  · refine (h.leave (leaves_sdSendCmd CMD18 _ 0x01)).bind ?_
    intro _ s₁ h₁
    have hrounds := toNat_pred hcnt
    refine Run.bind (run_doWhileOk (fun i b s' ↦ b = buf + 512 * i ∧ Wrote m v (buf, 512 * i) s')
      (fun i _ s' ↦ Wrote m v (buf, 512 * (i + 1)) s') ?_ ⟨rfl, h₁⟩) ?_
    · rintro i _ s' - ⟨rfl, hs'⟩
      refine (hblock (512 * i) s' hs').mono ?_
      intro r s'' hs''
      rw [← Nat.mul_succ] at hs''
      exact ⟨fun _ ↦ ⟨by rw [Nat.mul_succ, Nat.add_assoc], hs''⟩, fun _ ↦ hs''⟩
    · rintro r1 s₂ ⟨hgood, hbad⟩
      have h₂ : Wrote m v (buf, 512 * cnt.toNat) s₂ := by
        by_cases hr : r1 = 0
        · obtain ⟨_, -, hwrote⟩ := hgood hr
          rwa [hrounds] at hwrote
        · obtain ⟨i, hi, hwrote⟩ := hbad hr
          exact ⟨hwrote.glob, hwrote.mem.mono (Nat.mul_le_mul_left 512 (by omega))⟩
      refine (h₂.leave (leaves_sdSendCmd CMD12 0 0x01)).bind ?_
      intro _ s₃ h₃
      exact h₃.sdDisSelect r1

/-- **`SD_WriteDisk`** writes nothing to memory. -/
theorem run_sdWriteDisk_clean (buf : Nat) (sector : UInt32) (cnt : UInt8) (h : Wrote m v (0, 0) s) :
    Run (sdWriteDisk buf sector cnt) s fun _ s' ↦ s'.dev.high = true ∧ Wrote m v (0, 0) s' := by
  refine run_bind.2 (run_read.2 ?_)
  rw [run_ite]
  split
  · rw [← bind_assoc']
    refine (h.command CMD24 0x01 _ fun s' hs' ↦ hs'.leave (leaves_sdSendBlock buf 0xFE)).bind ?_
    intro r1 s₁ h₁
    exact h₁.sdDisSelect r1
  · refine (h.leave (leaves_sdPreErase cnt)).bind ?_
    intro _ s₁ h₁
    rw [← bind_assoc']
    refine (h₁.command CMD25 0x01 _ fun s' hs' ↦ hs'.leave (leaves_sendBlocks buf _)).bind ?_
    intro r1 s₂ h₂
    exact h₂.sdDisSelect r1

/-- **`SD_GetSectorCount`** writes its array. -/
theorem run_sdGetSectorCount_clean (csd : Nat) (h : Wrote m v (csd, 0) s) :
    Run (sdGetSectorCount csd) s fun _ s' ↦ s'.dev.high = true ∧ Wrote m v (csd, 16) s' := by
  refine Run.bind (R := fun _ s' ↦ s'.dev.high = true ∧ Wrote m v (csd, 16) s') ?_ ?_
  · rw [sdGetCSD, ← bind_assoc']
    have hcommand := h.command CMD9 0x01 0 fun _ hs' ↦ hs'.sdRecvData 16
    refine hcommand.bind ?_
    intro r1 s₁ h₁
    exact h₁.sdDisSelect _
  · intro r s₁ h₁
    rw [run_ite]
    split
    · exact run_pure.2 h₁
    · exact run_read.2 h₁

/-- **`SD_Initialize`** ends with the bus at high speed. -/
theorem run_sdInitialize_clean (s : Mcu (Pinned δ) SdVars) : Run sdInitialize s fun _ s' ↦
    s'.dev.high = true ∧ s'.mem = s.mem ∧ s'.glob.prescaler = SPI_BaudRatePrescaler_2 := by
  have hbyte : Leaves Mcu.mem (readWriteByte 0xFF : Prog (Mcu (Pinned δ) SdVars) UInt8) :=
    leaves_mem (leaves_readWriteByte 0xFF)
  have hcs : Leaves Mcu.mem (chipSelect true : Prog (Mcu (Pinned δ) SdVars) Unit) :=
    leaves_mem (leaves_chipSelect true)
  have hinit : Leaves Mcu.mem (sdSpiInit : Prog (Mcu (Pinned δ) SdVars) Unit) :=
    hcs.bind fun _ ↦ (leaves_assign _).bind fun _ ↦ hbyte.bind fun _ ↦ hcs
  have hclocks := Leaves.forRange (fun _ ↦ hbyte.bind fun _ ↦ .pure ()) 10
  have hreset : Leaves Mcu.mem (sdSendCmd CMD0 0 0x95 : Prog (Mcu (Pinned δ) SdVars) UInt8) :=
    leaves_sendCmd CMD0 0 0x95
  have hidle := leaves_retrying hreset 0x01 20
  have hbranch (r1 : UInt8) : Leaves Mcu.mem (if r1 = 0x01 then do
      let r8 ← sdSendCmd CMD8 0x1AA 0x87
      if r8 = 1 then sdInitV2 else sdInitV1
    else pure r1 : Prog (Mcu (Pinned δ) SdVars) UInt8) :=
    .ite ((leaves_sendCmd _ _ _).bind fun _ ↦ leaves_sdInitV2.ite leaves_sdInitV1) (.pure r1)
  refine hinit.run_bind fun _ s₁ h₁ ↦ (leaves_assign _).run_bind fun _ s₂ h₂ ↦ ?_
  refine hclocks.run_bind fun _ s₃ h₃ ↦ hidle.run_bind fun r s₄ h₄ ↦ ?_
  refine (leaves_assign _).run_bind fun _ s₅ h₅ ↦ (hbranch r.1).run_bind fun r1 s₆ h₆ ↦ ?_
  have hmem : s₆.mem = s.mem := by rw [h₆, h₅, h₄, h₃, h₂, h₁]
  exact .of_eq rfl ⟨rfl, hmem, rfl⟩

end Driver

/-! ## The operations on the card -/

/-- A number of blocks, as `diskio.c` says that it is called with. -/
structure Count where
  val : UInt32
  pos : 1 ≤ val.toNat
  le : val.toNat ≤ 128

theorem Count.toNat_toUInt8 (count : Count) : count.val.toUInt8.toNat = count.val.toNat :=
  (toUInt8_count count.pos count.le).1

theorem Count.ne_zero (count : Count) : count.val.toUInt8 ≠ 0 ∧ count.val ≠ 0 :=
  (toUInt8_count count.pos count.le).2

/-- What can be asked of the card, by the driver's functions and by those of the disk layer.
`csd` is where the array of `SD_GetSectorCount` lies. -/
inductive Op
  | SD_Initialize
  | SD_ReadDisk (buf : Nat) (sector : UInt32) (cnt : Count)
  | SD_WriteDisk (buf : Nat) (sector : UInt32) (cnt : Count)
  | SD_GetSectorCount (csd : Nat)
  | disk_initialize
  | disk_read (buff : Nat) (sector : UInt32) (count : Count)
  | disk_write (buff : Nat) (sector : UInt32) (count : Count)
  | ctrlSync (csd buff : Nat)

namespace Op

/-- Make the call, and drop what it returns. -/
def call {δ : Type} [SpiDevice δ] : Op → Prog (Mcu δ SdVars) Unit
  | SD_Initialize => do let _ ← sdInitialize
  | SD_ReadDisk buf sector cnt => do let _ ← sdReadDisk buf sector cnt.val.toUInt8
  | SD_WriteDisk buf sector cnt => do let _ ← sdWriteDisk buf sector cnt.val.toUInt8
  | SD_GetSectorCount csd => do let _ ← sdGetSectorCount csd
  | disk_initialize => do let _ ← diskInitialize SD_CARD
  | disk_read buff sector count => do let _ ← diskRead SD_CARD buff sector count.val
  | disk_write buff sector count => do let _ ← diskWrite SD_CARD buff sector count.val
  | ctrlSync csd buff => do let _ ← diskIoctl csd SD_CARD CTRL_SYNC buff

/-- The bytes that an operation may write: an address, and how many. -/
def region : Op → Nat × Nat
  | SD_ReadDisk buf _ cnt => (buf, 512 * cnt.val.toNat)
  | disk_read buff _ count => (buff, 512 * count.val.toNat)
  | SD_GetSectorCount csd => (csd, 16)
  | _ => (0, 0)

end Op

/-- The card was let go of, no byte outside the region was written, and the bus is at high speed
if it is to be. -/
structure Clean (m : Nat → UInt8) (region : Nat × Nat) (fast : Prop) (s : Mcu (Pinned δ) SdVars) :
    Prop where
  high : s.dev.high = true
  mem : Within region m s.mem
  prescaler : fast → s.glob.prescaler = SPI_BaudRatePrescaler_2

section Disk

variable {s s' : Mcu (Pinned δ) SdVars} {region : Nat × Nat} {fast : Prop}

/-- The bus is at high speed. -/
def Fast (s : Mcu (Pinned δ) SdVars) : Prop := s.glob.prescaler = SPI_BaudRatePrescaler_2

omit [SpiDevice δ] in
/-- A function that assigns nothing keeps the speed. -/
theorem Wrote.clean (h : Wrote m s.glob region s') (hhigh : s'.dev.high = true) :
    Clean m region (Fast s) s' := by
  refine ⟨hhigh, h.mem, fun hfast ↦ ?_⟩
  rw [h.glob]
  exact hfast

/-- What follows a function of the driver in `diskio.c`: after a failure, one byte at low speed. -/
theorem Clean.recover {res : UInt8} (h : Clean m region fast s) : Run (do
    when (res != 0) do
      sdSpiSpeedLow
      let _ ← readWriteByte 0xFF
      sdSpiSpeedHigh
    pure res) s fun _ s' ↦ Clean m region fast s' := by
  cases hres : res != 0
  · exact .of_eq rfl h
  · exact .of_eq rfl ⟨h.high, h.mem, fun _ ↦ rfl⟩

theorem run_diskInitialize_clean (s : Mcu (Pinned δ) SdVars) :
    Run (diskInitialize SD_CARD) s fun _ s' ↦ Clean s.mem (0, 0) True s' := by
  rw [diskInitialize, if_pos rfl]
  refine Run.bind ((run_sdInitialize_clean s).bind ?_) fun res s' hs' ↦ run_pure.2 hs'
  rintro res s₁ ⟨hhigh, hmem, hfast⟩
  exact Clean.recover ⟨hhigh, fun a _ ↦ congrFun hmem a, fun _ ↦ hfast⟩

theorem run_diskRead_clean (buff : Nat) (sector : UInt32) (count : Count) :
    Run (diskRead SD_CARD buff sector count.val) s fun _ s' ↦
      Clean s.mem (buff, 512 * count.val.toNat) (Fast s) s' := by
  rw [diskRead, if_neg count.ne_zero.2, if_pos rfl, ← count.toNat_toUInt8]
  have hstart : Wrote s.mem s.glob (buff, 0) s := ⟨rfl, .refl _ _⟩
  have hread := run_sdReadDisk_clean sector count.ne_zero.1 hstart
  refine Run.bind (hread.bind ?_) fun res s' hs' ↦ run_pure.2 hs'
  rintro res s₁ ⟨hhigh, hwrote⟩
  exact (hwrote.clean hhigh).recover

theorem run_diskWrite_clean (buff : Nat) (sector : UInt32) (count : Count) :
    Run (diskWrite SD_CARD buff sector count.val) s fun _ s' ↦ Clean s.mem (0, 0) (Fast s) s' := by
  rw [diskWrite, if_neg count.ne_zero.2, if_pos rfl]
  have hwrite := run_sdWriteDisk_clean buff sector count.val.toUInt8 (s := s) ⟨rfl, .refl _ _⟩
  refine hwrite.bind ?_
  rintro res s₁ ⟨hhigh, hwrote⟩
  exact run_pure.2 (hwrote.clean hhigh)

/-- `CTRL_SYNC` waits for the card, and takes the pin high whatever comes of it. -/
theorem run_ctrlSync_clean (csd buff : Nat) :
    Run (diskIoctl csd SD_CARD CTRL_SYNC buff) s fun _ s' ↦ Clean s.mem (0, 0) (Fast s) s' := by
  rw [diskIoctl, if_pos rfl, if_pos rfl]
  have hstart : Wrote s.mem s.glob (0, 0) s := ⟨rfl, .refl _ _⟩
  refine (hstart.leave (leaves_chipSelect false)).bind fun _ s₁ h₁ ↦ ?_
  refine (h₁.leave leaves_sdWaitReady).bind fun r s₂ h₂ ↦ ?_
  refine .of_eq rfl ?_
  exact ⟨rfl, h₂.mem, fun hfast ↦ (congrArg SdVars.prescaler h₂.glob).trans hfast⟩

end Disk

/-- Every operation, from every state. -/
theorem Op.run_call (op : Op) (s : Mcu (Pinned δ) SdVars) :
    Run op.call s fun _ s' ↦ Clean s.mem op.region (Fast s) s' := by
  have hstart (a : Nat) : Wrote s.mem s.glob (a, 0) s := ⟨rfl, .refl _ _⟩
  cases op with
  | SD_Initialize =>
      refine (run_sdInitialize_clean s).bind ?_
      rintro _ s' ⟨hhigh, hmem, hfast⟩
      exact run_pure.2 ⟨hhigh, fun a _ ↦ congrFun hmem a, fun _ ↦ hfast⟩
  | SD_ReadDisk buf sector cnt =>
      refine (run_sdReadDisk_clean sector cnt.ne_zero.1 (hstart buf)).bind ?_
      rintro _ s' ⟨hhigh, hwrote⟩
      rw [cnt.toNat_toUInt8] at hwrote
      exact run_pure.2 (hwrote.clean hhigh)
  | SD_WriteDisk buf sector cnt =>
      refine (run_sdWriteDisk_clean buf sector _ (hstart 0)).bind ?_
      rintro _ s' ⟨hhigh, hwrote⟩
      exact run_pure.2 (hwrote.clean hhigh)
  | SD_GetSectorCount csd =>
      refine (run_sdGetSectorCount_clean csd (hstart csd)).bind ?_
      rintro _ s' ⟨hhigh, hwrote⟩
      exact run_pure.2 (hwrote.clean hhigh)
  | disk_initialize =>
      refine (run_diskInitialize_clean s).bind ?_
      rintro _ s' ⟨hhigh, hmem, hfast⟩
      exact run_pure.2 ⟨hhigh, hmem, fun _ ↦ hfast trivial⟩
  | disk_read buff sector count =>
      exact (run_diskRead_clean buff sector count).bind fun _ _ hs' ↦ run_pure.2 hs'
  | disk_write buff sector count =>
      exact (run_diskWrite_clean buff sector count).bind fun _ _ hs' ↦ run_pure.2 hs'
  | ctrlSync csd buff =>
      exact (run_ctrlSync_clean csd buff).bind fun _ _ hs' ↦ run_pure.2 hs'

/-- **The driver always comes back clean.**  Whatever is on the bus and in whatever state, every
operation on one to 128 blocks returns; it leaves the chip-select pin high and writes no byte
outside its own region; and once `disk_initialize` has run, the bus is at high speed after every
sequence of operations. -/
theorem sd_comes_back_clean (s : Mcu (Pinned δ) SdVars) :
    (∀ op : Op, Run op.call s fun _ s' ↦
      s'.dev.high = true ∧ ∀ a, a < op.region.1 ∨ op.region.1 + op.region.2 ≤ a →
        s'.mem a = s.mem a) ∧
    ∀ ops : List Op, Run (do
        let _ ← diskInitialize SD_CARD
        runCalls Op.call ops) s fun _ s' ↦
      s'.dev.high = true ∧ s'.glob.prescaler = SPI_BaudRatePrescaler_2 := by
  constructor
  · intro op
    refine (op.run_call s).mono ?_
    intro _ s' hs'
    exact ⟨hs'.high, hs'.mem⟩
  · intro ops
    refine (run_diskInitialize_clean s).bind ?_
    intro _ s₁ h₁
    refine run_runCalls_inv (fun _ ↦ True) _ ?_ (fun _ _ ↦ trivial) ⟨h₁.high, h₁.prescaler trivial⟩
    rintro op s₂ - ⟨-, hfast⟩
    refine (op.run_call s₂).mono ?_
    intro _ s' hs'
    exact ⟨hs'.high, hs'.prescaler hfast⟩

end Stm32F1.Sd
