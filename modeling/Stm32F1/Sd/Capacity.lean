import Stm32F1.Lib.Bits
import Stm32F1.Sd.OnWire

/-!
# The capacity of a card

The CSD register has 128 bits, sent as 16 bytes, and the size of the card is in
fields of it that begin and end within bytes.  `SD_GetSectorCount` puts them
together in a byte and in a 16-bit variable.  In a card of version 1 that is
enough; in one of version 2 the size has 22 bits.
-/

namespace Stm32F1.Sd

open Prog Mcu

/-! ## The fields of the register -/

/-- The bits `hi` to `lo` of the register. -/
def csdField (csd : Nat → UInt8) (hi lo : Nat) : Nat := bitField (bigEndian csd 16) hi lo

/-- CSD_STRUCTURE: 0 is version 1, 1 is version 2. -/
def csdStructure (csd : Nat → UInt8) : Nat := csdField csd 127 126

def readBlLen (csd : Nat → UInt8) : Nat := csdField csd 83 80

/-- C_SIZE of version 1. -/
def cSize (csd : Nat → UInt8) : Nat := csdField csd 73 62

def cSizeMult (csd : Nat → UInt8) : Nat := csdField csd 49 47

/-- C_SIZE of version 2. -/
def cSizeV2 (csd : Nat → UInt8) : Nat := csdField csd 69 48

section Fields

variable (csd : Nat → UInt8)

/-- A field whose lowest bit is bit `j` of byte `n`. -/
theorem csdField_eq (hi : Nat) {n j : Nat} (hn : n < 16) :
    csdField csd hi (8 * (15 - n) + j) =
      bigEndian csd (n + 1) / 2 ^ j % 2 ^ (hi + 1 - (8 * (15 - n) + j)) := by
  have hbytes : (256 : Nat) ^ (15 - n) = 2 ^ (8 * (15 - n)) := by
    rw [Nat.pow_mul]
  have hlen : n + 1 + (15 - n) = 16 := by omega
  rw [csdField, bitField, Nat.pow_add, ← Nat.div_div_eq_div_mul, ← hbytes, ← hlen, bigEndian_shift]

theorem csdStructure_eq : csdStructure csd = (csd 0).toNat / 64 := by
  have h := csdField_eq csd 127 (n := 0) (j := 6) (by decide)
  have h0 := (csd 0).toNat_lt
  refine h.trans ?_
  simp only [bigEndian]
  omega

theorem readBlLen_eq : readBlLen csd = (csd 5).toNat % 16 := by
  have h := csdField_eq csd 83 (n := 5) (j := 0) (by decide)
  refine h.trans ?_
  simp only [bigEndian]
  omega

theorem cSize_eq : cSize csd =
    (csd 6).toNat % 4 * 1024 + (csd 7).toNat * 4 + (csd 8).toNat / 64 := by
  have h := csdField_eq csd 73 (n := 8) (j := 6) (by decide)
  have h7 := (csd 7).toNat_lt
  have h8 := (csd 8).toNat_lt
  refine h.trans ?_
  rw [bigEndian, bigEndian, bigEndian]
  omega

theorem cSizeMult_eq : cSizeMult csd = (csd 9).toNat % 4 * 2 + (csd 10).toNat / 128 := by
  have h := csdField_eq csd 49 (n := 10) (j := 7) (by decide)
  have h10 := (csd 10).toNat_lt
  refine h.trans ?_
  rw [bigEndian, bigEndian]
  omega

theorem cSizeV2_eq : cSizeV2 csd =
    (csd 7).toNat % 64 * 65536 + (csd 8).toNat * 256 + (csd 9).toNat := by
  have h := csdField_eq csd 69 (n := 9) (j := 0) (by decide)
  have h8 := (csd 8).toNat_lt
  have h9 := (csd 9).toNat_lt
  refine h.trans ?_
  rw [bigEndian, bigEndian, bigEndian]
  omega

/-! ## What the driver makes of them -/

section Masks

variable (b : UInt8)

theorem and_C0_eq_iff : b &&& 0xC0 = 0x40 ↔ b.toNat / 64 = 1 := by
  obtain ⟨v⟩ := b
  revert v
  decide +kernel

theorem toNat_and_15 : (b &&& 15).toNat = b.toNat % 16 := by
  rw [UInt8.toNat_and]
  exact Nat.and_two_pow_sub_one_eq_mod b.toNat 4

theorem toNat_and_3 : (b &&& 3).toNat = b.toNat % 4 := by
  rw [UInt8.toNat_and]
  exact Nat.and_two_pow_sub_one_eq_mod b.toNat 2

theorem toNat_bit_7 : ((b &&& 128 : UInt8) >>> 7).toNat = b.toNat / 128 := by
  obtain ⟨v⟩ := b
  revert v
  decide +kernel

theorem toNat_and_3_shift : ((b &&& 3 : UInt8) <<< 1).toNat = b.toNat % 4 * 2 := by
  obtain ⟨v⟩ := b
  revert v
  decide +kernel

theorem toNat_shift_6 : (b >>> 6).toNat = b.toNat / 64 := by
  rw [UInt8.toNat_shiftRight]
  exact Nat.shiftRight_eq_div_pow _ _

end Masks

theorem version_iff : csd 0 &&& 0xC0 = 0x40 ↔ csdStructure csd = 1 := by
  rw [and_C0_eq_iff, csdStructure_eq]

/-- Of the size of a card of version 2 the driver keeps 16 bits. -/
theorem capacity_v2 (h : csdStructure csd = 1) :
    (capacity csd).toNat = (cSizeV2 csd + 1) % 65536 * 1024 := by
  rw [capacity, if_pos ((version_iff csd).2 h), cSizeV2_eq]
  have h8 := (csd 8).toNat_lt
  have h9 := (csd 9).toNat_lt
  have hshift : ((csd 8).toUInt16 <<< 8).toNat = (csd 8).toNat * 256 := by
    rw [UInt16.toNat_shiftLeft, UInt8.toNat_toUInt16, Nat.shiftLeft_eq]
    exact Nat.mod_eq_of_lt (by change (csd 8).toNat * 256 < 65536; omega)
  have hsize : ((csd 9).toUInt16 + ((csd 8).toUInt16 <<< 8) + 1).toNat =
      ((csd 9).toNat + (csd 8).toNat * 256 + 1) % 65536 := by
    rw [UInt16.toNat_add, UInt16.toNat_add, hshift, UInt8.toNat_toUInt16]
    exact Nat.mod_add_mod _ _ _
  rw [UInt32.toNat_shiftLeft, UInt16.toNat_toUInt32, hsize, Nat.shiftLeft_eq]
  change ((csd 9).toNat + (csd 8).toNat * 256 + 1) % 65536 * 1024 % 4294967296 = _
  omega

/-- The counter of a card of version 1 is all there. -/
theorem capacity_v1 (h : csdStructure csd ≠ 1) (hlen : 9 ≤ readBlLen csd) :
    (capacity csd).toNat = (cSize csd + 1) * 2 ^ (cSizeMult csd + 2 + readBlLen csd) / 512 := by
  rw [capacity, if_neg fun h' ↦ h ((version_iff csd).1 h')]
  rw [readBlLen_eq] at hlen
  rw [readBlLen_eq, cSize_eq, cSizeMult_eq]
  have h7 := (csd 7).toNat_lt
  have h8 := (csd 8).toNat_lt
  have h10 := (csd 10).toNat_lt
  have hn : ((csd 5 &&& 15 : UInt8) + ((csd 10 &&& 128 : UInt8) >>> 7) +
      ((csd 9 &&& 3 : UInt8) <<< 1) + 2).toNat =
        (csd 5).toNat % 16 + (csd 10).toNat / 128 + (csd 9).toNat % 4 * 2 + 2 := by
    rw [UInt8.toNat_add, UInt8.toNat_add, UInt8.toNat_add, toNat_and_15, toNat_bit_7,
      toNat_and_3_shift, show (2 : UInt8).toNat = 2 from rfl]
    omega
  have h7shift : ((csd 7).toUInt16 <<< 2).toNat = (csd 7).toNat * 4 := by
    rw [UInt16.toNat_shiftLeft, UInt8.toNat_toUInt16, Nat.shiftLeft_eq]
    exact Nat.mod_eq_of_lt (by change (csd 7).toNat * 4 < 65536; omega)
  have h6shift : ((csd 6 &&& 3).toUInt16 <<< 10).toNat = (csd 6).toNat % 4 * 1024 := by
    rw [UInt16.toNat_shiftLeft, UInt8.toNat_toUInt16, toNat_and_3, Nat.shiftLeft_eq]
    exact Nat.mod_eq_of_lt (by change (csd 6).toNat % 4 * 1024 < 65536; omega)
  have hsize : ((csd 8 >>> 6).toUInt16 + ((csd 7).toUInt16 <<< 2) +
      ((csd 6 &&& 3).toUInt16 <<< 10) + 1).toNat =
        (csd 8).toNat / 64 + (csd 7).toNat * 4 + (csd 6).toNat % 4 * 1024 + 1 := by
    rw [UInt16.toNat_add, UInt16.toNat_add, UInt16.toNat_add, h7shift, h6shift,
      UInt8.toNat_toUInt16, toNat_shift_6, show (1 : UInt16).toNat = 1 from rfl]
    omega
  dsimp only
  generalize (csd 5 &&& 15 : UInt8) + ((csd 10 &&& 128 : UInt8) >>> 7) +
    ((csd 9 &&& 3 : UInt8) <<< 1) + 2 = n at hn ⊢
  obtain ⟨e, he⟩ : ∃ e, n.toNat = e + 9 := ⟨n.toNat - 9, by omega⟩
  have hle : (9 : UInt32) ≤ n.toUInt32 := by
    rw [UInt32.le_iff_toNat_le, UInt8.toNat_toUInt32, he]
    exact Nat.le_add_left _ _
  have hexp : (n.toUInt32 - 9).toNat % 32 = e := by
    rw [UInt32.toNat_sub_of_le _ _ hle, UInt8.toNat_toUInt32, he,
      show (9 : UInt32).toNat = 9 from rfl]
    omega
  have hfit : ((csd 8).toNat / 64 + (csd 7).toNat * 4 + (csd 6).toNat % 4 * 1024 + 1) * 2 ^ e <
      2 ^ 32 :=
    calc ((csd 8).toNat / 64 + (csd 7).toNat * 4 + (csd 6).toNat % 4 * 1024 + 1) * 2 ^ e
        ≤ 4096 * 2 ^ 15 := Nat.mul_le_mul (by omega) (Nat.pow_le_pow_right (by decide) (by omega))
      _ < 2 ^ 32 := by decide
  have hpow : (csd 9).toNat % 4 * 2 + (csd 10).toNat / 128 + 2 + (csd 5).toNat % 16 = e + 9 := by
    omega
  rw [UInt32.toNat_shiftLeft, UInt16.toNat_toUInt32, hsize, hexp, Nat.shiftLeft_eq,
    Nat.mod_eq_of_lt hfit, hpow, Nat.pow_add, ← Nat.mul_assoc, show 512 = 2 ^ 9 from rfl,
    Nat.mul_div_cancel _ (by decide : 0 < 2 ^ 9)]
  refine congrArg (· * 2 ^ e) ?_
  omega

/-- What the standard says of the sectors of a card, as far as a count of 32 bits can say it. -/
structure Decoded (n : UInt32) : Prop where
  v2 : csdStructure csd = 1 → (cSizeV2 csd + 1) * 1024 < 2 ^ 32 →
    n.toNat = (cSizeV2 csd + 1) * 1024
  v1 : csdStructure csd = 0 → 9 ≤ readBlLen csd →
    n.toNat = (cSize csd + 1) * 2 ^ (cSizeMult csd + 2 + readBlLen csd) / 512

/-- The size of a card of version 2 and 1 more fit in 16 bits, or the count does not fit in 32. -/
def Representable : Prop :=
  csdStructure csd = 1 → cSizeV2 csd < 0xFFFF ∨ cSizeV2 csd = 0x3FFFFF

theorem decoded_iff : Decoded csd (capacity csd) ↔ Representable csd := by
  have h7 := (csd 7).toNat_lt
  have h8 := (csd 8).toNat_lt
  have h9 := (csd 9).toNat_lt
  have hmax : cSizeV2 csd ≤ 0x3FFFFF := by
    rw [cSizeV2_eq]
    omega
  constructor
  · intro h hv2
    have hcount := h.v2 hv2
    rw [capacity_v2 csd hv2] at hcount
    omega
  · intro h
    constructor
    · intro hv2 hfit
      have hsize := h hv2
      rw [capacity_v2 csd hv2]
      omega
    · intro hv1 hlen
      exact capacity_v1 csd (by omega) hlen

/-- Only the 16 bytes of the register count. -/
theorem capacity_congr {csd reg : Nat → UInt8} (h : ∀ i < 16, csd i = reg i) :
    capacity csd = capacity reg := by
  simp only [capacity, h 0 (by decide), h 5 (by decide), h 6 (by decide), h 7 (by decide),
    h 8 (by decide), h 9 (by decide), h 10 (by decide)]

end Fields

/-! ## `SD_GetSectorCount` on the wire -/

section Wire

variable {m s : Nat → UInt8} {p : Nat} {mon : Monitor} {v : SdVars}

/-- The register that a card sends when it is asked for it at position `p` of the stream, if it
does. -/
def csdSent (s : Nat → UInt8) (p : Nat) : Option (Nat → UInt8) :=
  if reply s p CMD9 = 0 ∧ tokenFound s (afterCmd s p CMD9) = true then
    some fun i ↦ s (tokenHit s (afterCmd s p CMD9) + 1 + i)
  else none

theorem run_sdGetCSD (csd : Nat) : Run (sdGetCSD csd) (onWire m s p mon v) fun r t ↦
    (csdSent s p = none → r = 1) ∧
    ∀ reg, csdSent s p = some reg → r = 0 ∧ ∀ i < 16, t.mem (csd + i) = reg i := by
  have hcmd : Command CMD9 := ⟨by decide, by decide⟩
  have hdis (r : UInt8) (m' : Nat → UInt8) (q : Nat) (mon' : Monitor) : (do
      sdDisSelect
      pure (if r ≠ 0 then (1 : UInt8) else 0)) (onWire m' s q mon' v) =
        some (if r ≠ 0 then 1 else 0, onWire m' s (q + 1) ⟨false, .idle, mon'.recs⟩ v) := by
    rw [bind_of_eq sdDisSelect_eq, pure_apply]
  rw [sdGetCSD]
  by_cases hreply : reply s p CMD9 = 0
  · rw [run_bind, run_of_eq (sdSendCmd_zero hcmd hreply 0 0x01), if_pos rfl]
    have ha : Monitor.Awaits ⟨true, .opened (cmdFrame CMD9 0 0x01) 0,
        mon.recs ++ [.reply (cmdFrame CMD9 0 0x01) 0]⟩ := quiet_idle.awaits
    cases htoken : tokenFound s (afterCmd s p CMD9) with
    | false =>
        have hnone : csdSent s p = none := if_neg fun h ↦ by simp [htoken] at h
        rw [run_bind, run_of_eq (sdRecvData_missing ha htoken csd 16)]
        refine .of_eq (hdis ..) ⟨fun _ ↦ rfl, fun reg hreg ↦ ?_⟩
        exact absurd (hnone.symm.trans hreg) (Option.some_ne_none reg).symm
    | true =>
        have hsome : csdSent s p = some fun i ↦ s (tokenHit s (afterCmd s p CMD9) + 1 + i) :=
          if_pos ⟨hreply, htoken⟩
        rw [run_bind, run_of_eq (sdRecvData_token ha htoken csd 16)]
        refine .of_eq (hdis ..) ⟨fun hnone ↦ ?_, fun reg hreg ↦ ⟨rfl, fun i hi ↦ ?_⟩⟩
        · exact absurd (hsome.symm.trans hnone) (Option.some_ne_none _)
        · rw [← Option.some.inj (hsome.symm.trans hreg)]
          have hi : i < (16 : UInt16).toNat := hi
          show overlay m csd (16 : UInt16).toNat
            (fun i ↦ s (tokenHit s (afterCmd s p CMD9) + 1 + i)) (csd + i) = _
          rw [overlay_add hi]
  · have hnone : csdSent s p = none := if_neg fun h ↦ hreply h.1
    rw [run_bind, run_of_eq (sdSendCmd_eq hcmd 0 0x01), if_neg hreply, run_bind, run_pure]
    refine .of_eq (hdis ..) ⟨fun _ ↦ if_pos hreply, fun reg hreg ↦ ?_⟩
    exact absurd (hnone.symm.trans hreg) (Option.some_ne_none reg).symm

theorem run_sdGetSectorCount (csd : Nat) :
    Run (sdGetSectorCount csd) (onWire m s p mon v) fun n _ ↦
      (csdSent s p = none → n = 0) ∧ ∀ reg, csdSent s p = some reg → n = capacity reg := by
  refine (run_sdGetCSD csd).bind ?_
  rintro r t ⟨hnone, hsome⟩
  cases hcsd : csdSent s p with
  | none =>
      rw [hnone hcsd, if_pos (by decide), run_pure]
      exact ⟨fun _ ↦ rfl, nofun⟩
  | some reg =>
      obtain ⟨rfl, hmem⟩ := hsome reg hcsd
      rw [if_neg (by decide), run_read]
      refine ⟨nofun, fun reg' hreg ↦ ?_⟩
      rw [← Option.some.inj hreg]
      exact capacity_congr hmem

/-- **The capacity is decoded exactly as the standard says, exactly when** the card is not of
version 2 or its size and 1 more fit in 16 bits (or the count is too large for the result
anyway). -/
theorem sectorCount_decoded_iff (m s : Nat → UInt8) (p : Nat) (mon : Monitor) (v : SdVars)
    (csd : Nat) : Run (sdGetSectorCount csd) (onWire m s p mon v) fun n _ ↦
      ∀ reg, csdSent s p = some reg → (Decoded reg n ↔ Representable reg) := by
  refine (run_sdGetSectorCount csd).mono ?_
  rintro n _ ⟨-, hsome⟩ reg hreg
  rw [hsome reg hreg]
  exact decoded_iff reg

/-- `disk_ioctl` hands the count on. -/
theorem run_diskIoctl_sectorCount {n : UInt32} {t t' : Mcu Wire SdVars} {csd : Nat}
    (h : sdGetSectorCount csd t = some (n, t')) (buff : Nat) :
    Run (diskIoctl csd SD_CARD GET_SECTOR_COUNT buff) t fun r u ↦ r = .RES_OK ∧
      slice u.mem buff 4 =
        [n.toUInt8, (n >>> 8).toUInt8, (n >>> 16).toUInt8, (n >>> 24).toUInt8] := by
  have hcmd : ¬ GET_SECTOR_COUNT = CTRL_SYNC ∧ ¬ GET_SECTOR_COUNT = GET_SECTOR_SIZE ∧
      ¬ GET_SECTOR_COUNT = GET_BLOCK_SIZE := by decide
  rw [diskIoctl, if_pos rfl, if_neg hcmd.1, ioctlSize, if_neg hcmd.2.1, if_neg hcmd.2.2, if_pos rfl,
    run_bind, run_of_eq h]
  refine .of_eq (bind_of_eq rfl) ⟨rfl, ?_⟩
  simp [slice, List.range_succ, Function.update_apply]

/-- The register of a card of 64 GB: C_SIZE is `0x1D6EF`. -/
def csd64GB (i : Nat) : UInt8 :=
  [0x40, 0x0E, 0x00, 0x32, 0x5B, 0x59, 0x00, 0x01, 0xD6, 0xEF, 0x7F, 0x80, 0x0A, 0x40, 0x40,
    0x01].getD i 0

/-- A card that sends it at once. -/
def card64GB (q : Nat) : UInt8 :=
  if q = 8 then 0 else if q = 9 then 0xFE else if 10 ≤ q then csd64GB (q - 10) else 0xFF

/-- A card of 64 GB is given the size of one of 29 GB. -/
theorem large_card_truncated : ¬ ∀ (m s : Nat → UInt8) (p : Nat) (mon : Monitor) (v : SdVars)
    (csd : Nat), Run (sdGetSectorCount csd) (onWire m s p mon v) fun n _ ↦
      ∀ reg, csdSent s p = some reg → Decoded reg n := by
  intro h
  have hcmd : CMD9 ≠ CMD12 := by decide
  obtain ⟨hreply, hafter⟩ := reply_at_once (s := card64GB) (p := 0) hcmd rfl rfl
  have htoken : tokenHit card64GB 9 = 9 := by
    apply hit_of_good
    rfl
  have hsent : csdSent card64GB 0 = some fun i ↦ card64GB (10 + i) := by
    rw [csdSent, hafter, tokenFound, htoken, if_pos ⟨hreply, rfl⟩]
  have hreg : ∀ i < 16, card64GB (10 + i) = csd64GB i := by decide
  obtain ⟨n, t, hn, hdecoded⟩ := h (fun _ ↦ 0) card64GB 0 ⟨false, .idle, []⟩ ⟨0, 0⟩ 0x2000
  obtain ⟨-, hcount⟩ := (run_sdGetSectorCount 0x2000).elim hn
  have hiff := hdecoded _ hsent
  rw [hcount _ hsent, decoded_iff] at hiff
  have hsize := hiff (by rw [csdStructure_eq]; rfl)
  rw [cSizeV2_eq] at hsize
  revert hsize
  decide

end Wire

end Stm32F1.Sd
