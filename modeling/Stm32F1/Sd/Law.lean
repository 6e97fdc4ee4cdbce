import Stm32F1.Sd.Initialize

/-!
# What is written to a drive is read from it

The law that FatFs relies on, for every drive that `disk_initialize` admits: what
`disk_write` accepted is what a later `disk_read` delivers, unless the sectors
were written in between.  It holds of the drive with the card, whatever the calls
in between do, inside the card or beyond it.  It fails on `EX_FLASH`, which all
three functions admit and none of them serves.
-/

namespace Stm32F1.Sd

open Prog Mcu Card

variable {m : Nat → UInt8} {c c' c'' : Card} {v : SdVars} {cell cell' : Nat → UInt8}

/-! ## Runs of the disk layer -/

/-- A call to the disk layer. -/
inductive Call
  | init (pdrv : UInt8)
  | read (pdrv : UInt8) (buff : Nat) (sector count : UInt32)
  | write (pdrv : UInt8) (buff : Nat) (sector count : UInt32)

/-- The memory as the caller leaves it, then the call; its result is the caller's affair. -/
def makeCall {δ : Type} [SpiDevice δ] (call : (Nat → UInt8) × Call) : Prog (Mcu δ SdVars) Unit := do
  Prog.modify fun s ↦ { s with mem := call.1 }
  match call.2 with
  | .init pdrv => do
      let _ ← diskInitialize pdrv
      pure ()
  | .read pdrv buff sector count => do
      let _ ← diskRead pdrv buff sector count
      pure ()
  | .write pdrv buff sector count => do
      let _ ← diskWrite pdrv buff sector count
      pure ()

/-- Something is written to a drive, other calls are made, and it is read again. -/
structure Errand where
  pdrv : UInt8
  sector : UInt32
  count : UInt32
  /-- The memory with the data, and where the data is. -/
  data : Nat → UInt8
  buff : Nat
  between : List ((Nat → UInt8) × Call)
  /-- The memory before the read, and where the sectors shall go. -/
  memory : Nat → UInt8
  buff' : Nat

namespace Errand

variable {δ : Type} [SpiDevice δ] (e : Errand)

/-- The errand on a drive that is initialized: both results, and what was read. -/
def carryOut : Prog (Mcu δ SdVars) (DResult × DResult × List UInt8) := do
  Prog.modify fun s ↦ { s with mem := e.data }
  let r₁ ← diskWrite e.pdrv e.buff e.sector e.count
  let _ ← runCalls makeCall e.between
  Prog.modify fun s ↦ { s with mem := e.memory }
  let r₂ ← diskRead e.pdrv e.buff' e.sector e.count
  Prog.read fun s ↦ (r₁, r₂, slice s.mem e.buff' (512 * e.count.toNat))

/-- The errand; a drive that `disk_initialize` does not admit is not used. -/
def run : Prog (Mcu δ SdVars) (Option (DResult × DResult × List UInt8)) := do
  let res ← diskInitialize e.pdrv
  if res = 0 then do
    let o ← e.carryOut
    pure (some o)
  else pure none

omit [SpiDevice δ] in
/-- What the read shall deliver. -/
def written : List UInt8 := slice e.data e.buff (512 * e.count.toNat)

end Errand

/-- The call writes to none of the `n` sectors that a card of this kind finds from sector `a` on. -/
def Call.Spares (kind : CardKind) (pdrv : UInt8) (a n : Nat) : Call → Prop
  | .write pdrv' _ sector count => pdrv' = pdrv →
      home kind sector + count.toNat ≤ a ∨ a + n ≤ home kind sector
  | _ => True

/-- **The law.**  From any card that may be initialized: the errand ends, and when both its results
are `RES_OK` what was written is read, provided that no call in between writes to the sectors. -/
def StorageLaw (pdrv : UInt8) (sector count : UInt32) : Prop :=
  ∀ (e : Errand) (c : Card) (m : Nat → UInt8) (v : SdVars), e.pdrv = pdrv → e.sector = sector →
    e.count = count → Present c →
    (∀ call ∈ e.between, call.2.Spares c.kind pdrv (home c.kind sector) count.toNat) →
    Run e.run (⟨m, c, v⟩ : Mcu Card SdVars) fun o _ ↦ ∀ bytes,
      o = some (.RES_OK, .RES_OK, bytes) → bytes = e.written

/-! ## The calls in between -/

/-- The driver knows the kind of the card, which is at rest and holds, of the `n` sectors from `a`
on, what `cell` says. -/
structure Keeps (c : Card) (cell : Nat → UInt8) (a n : Nat) (s : Mcu Card SdVars) : Prop where
  type : s.glob.sdType = c.kind.sdType
  rest : Rest c s.dev.cell s.dev
  cell : ∀ x, 512 * a ≤ x → x < 512 * (a + n) → s.dev.cell x = cell x

variable {a n : Nat} {s : Mcu Card SdVars}

theorem Keeps.mem (h : Keeps c cell a n s) (m : Nat → UInt8) :
    Keeps c cell a n { s with mem := m } := ⟨h.type, h.rest, h.cell⟩

theorem Rest.trans (h : Rest c cell c') (h' : Rest c' c'.cell c'') : Rest c c''.cell c'' :=
  ⟨h'.kind.trans h.kind, h'.sectors.trans h.sectors, rfl, h'.mode, h'.awake, h'.busy⟩

/-- Counts are cut down on the way to the driver. -/
theorem rounds_le {count : UInt32} (h : count ≠ 0) :
    (count.toUInt8 - 1).toNat + 1 ≤ count.toNat := by
  by_cases h0 : count.toUInt8 = 0
  · have hmod : count.toNat % 256 = 0 := by
      rw [← UInt32.toNat_toUInt8, h0]
      rfl
    have hpos : count.toNat ≠ 0 := fun h' ↦ h (UInt32.toNat_inj.1 h')
    have hrounds : ((0 : UInt8) - 1).toNat + 1 = 256 := rfl
    rw [h0, hrounds]
    omega
  · rw [toNat_pred h0, UInt32.toNat_toUInt8]
    exact Nat.mod_le _ _

/-- A drive without a card does nothing, and does not touch the card either. -/
theorem run_initialize_keeps (h : Keeps c cell a n s) (pdrv : UInt8) :
    Run (diskInitialize pdrv) s fun _ t ↦ Keeps c cell a n t := by
  by_cases hp : pdrv = SD_CARD
  · subst hp
    refine (run_diskInitialize_card h.rest.present).mono ?_
    rintro _ t ⟨-, -, htype, hrest⟩
    have htrans := h.rest.trans hrest
    refine ⟨htype.trans (congrArg CardKind.sdType h.rest.kind), htrans, fun x hx hx' ↦ ?_⟩
    rw [hrest.cell]
    exact h.cell x hx hx'
  · rw [diskInitialize, if_neg hp]
    exact run_pure.2 h

/-- A read that fails sends a byte at low speed, which a deselected card does not notice. -/
theorem run_slowByte (hsel : s.dev.selected = false) :
    Run (do
        sdSpiSpeedLow
        let _ ← readWriteByte 0xFF
        sdSpiSpeedHigh) s fun _ t ↦
      t.mem = s.mem ∧ t.dev = s.dev ∧ t.glob.sdType = s.glob.sdType := by
  have hidle : SpiDevice.exchange 0xFF s.dev = (0xFF, s.dev) := exchange_of_not_selected hsel 0xFF
  rw [run_bind, sdSpiSpeedLow, run_of_eq (assign_apply _ _), run_bind,
    run_of_eq (readWriteByte_apply _ _), sdSpiSpeedHigh, run_of_eq (assign_apply _ _)]
  exact ⟨rfl, congrArg Prod.snd hidle, rfl⟩

/-- `disk_read` from the card, whatever is asked for. -/
theorem run_diskRead_card (h : Keeps c cell a n s) (buff : Nat) (sector : UInt32) {count : UInt32}
    (hcount : count ≠ 0) :
    Run (diskRead SD_CARD buff sector count) s fun r t ↦ Keeps c cell a n t ∧
      (r = .RES_OK → home c.kind sector + ((count.toUInt8 - 1).toNat + 1) ≤ c.sectors ∧
        t.mem = overlay s.mem buff (512 * ((count.toUInt8 - 1).toNat + 1)) fun i ↦
          s.dev.cell (512 * home c.kind sector + i)) := by
  rw [diskRead, if_neg hcount, if_pos rfl, bind_assoc']
  refine (run_readDisk count.toUInt8 h.rest h.type).bind ?_
  intro r t ht
  have hkeeps (t' : Mcu Card SdVars) (hdev : t'.dev = t.dev)
      (hglob : t'.glob.sdType = t.glob.sdType) : Keeps c cell a n t' := by
    have hrest := ht.rest
    have hcell : t.dev.cell = s.dev.cell := hrest.cell
    refine ⟨?_, ?_, ?_⟩
    · rw [hglob, ht.glob]
      exact h.type
    · rw [hdev]
      rwa [hcell]
    · rw [hdev, hcell]
      exact h.cell
  by_cases hr : r = 0
  · subst hr
    refine run_bind.2
      (run_pure.2 (run_bind.2 (run_pure.2 (run_pure.2 ⟨hkeeps t rfl rfl, fun _ ↦ ?_⟩))))
    exact ⟨ht.ok.1 rfl, ht.mem rfl⟩
  · have hne : (r != 0) = true := bne_iff_ne.2 hr
    rw [hne, when_true, bind_assoc']
    refine (run_slowByte ht.selected).bind ?_
    rintro _ t' ⟨-, hdev, hglob⟩
    rw [pure_bind', run_pure, if_neg hr]
    exact ⟨hkeeps t' hdev hglob, fun h ↦ by cases h⟩

/-- `disk_write` to the card, whatever is asked for: other sectors stay, and those asked for are
stored when they exist. -/
theorem run_diskWrite_card (h : Keeps c cell a n s) (buff : Nat) (sector : UInt32) {count : UInt32}
    (hcount : count ≠ 0) :
    Run (diskWrite SD_CARD buff sector count) s fun _ t ↦ t.glob.sdType = c.kind.sdType ∧
      Rest c t.dev.cell t.dev ∧
      Aside s.dev.cell t.dev.cell (home c.kind sector) ((count.toUInt8 - 1).toNat + 1) ∧
      (home c.kind sector + ((count.toUInt8 - 1).toNat + 1) ≤ c.sectors → t.dev.cell =
        overlay s.dev.cell (512 * home c.kind sector) (512 * ((count.toUInt8 - 1).toNat + 1))
          fun i ↦ s.mem (buff + i)) := by
  rw [diskWrite, if_neg hcount, if_pos rfl]
  refine (run_writeDisk count.toUInt8 h.rest h.type).bind ?_
  intro r t ht
  rw [run_pure]
  exact ⟨ht.glob ▸ h.type, ht.rest, ht.aside, fun hle ↦ (ht.ok hle).2⟩

/-- **A call in between** keeps the sectors it spares. -/
theorem run_makeCall (call : (Nat → UInt8) × Call) (hspares : call.2.Spares c.kind SD_CARD a n)
    (h : Keeps c cell a n s) : Run (makeCall call) s fun _ t ↦ Keeps c cell a n t := by
  obtain ⟨m, call⟩ := call
  refine run_bind.2 (run_modify.2 ?_)
  have hm := h.mem m
  cases call with
  | init pdrv =>
      refine (run_initialize_keeps hm pdrv).bind ?_
      intro _ t ht
      exact run_pure.2 ht
  | read pdrv buff sector count =>
      dsimp only
      by_cases h0 : count = 0
      · rw [diskRead, if_pos h0]
        exact run_pure.2 hm
      by_cases hp : pdrv = SD_CARD
      · subst hp
        refine (run_diskRead_card hm buff sector h0).bind ?_
        rintro _ t ⟨ht, -⟩
        exact run_pure.2 ht
      · rw [diskRead, if_neg h0, if_neg hp]
        exact run_pure.2 hm
  | write pdrv buff sector count =>
      dsimp only at hspares ⊢
      by_cases h0 : count = 0
      · rw [diskWrite, if_pos h0]
        exact run_pure.2 hm
      by_cases hp : pdrv = SD_CARD
      · subst hp
        refine (run_diskWrite_card hm buff sector h0).bind ?_
        rintro _ t ⟨htype, hrest, haside, -⟩
        refine run_pure.2 ⟨htype, hrest, fun x hx hx' ↦ ?_⟩
        have hrounds := rounds_le h0
        have happart := hspares rfl
        rw [haside x (by omega)]
        exact hm.cell x hx hx'
      · rw [diskWrite, if_neg h0, if_neg hp]
        exact run_pure.2 hm

theorem run_between {calls : List ((Nat → UInt8) × Call)}
    (hspares : ∀ call ∈ calls, call.2.Spares c.kind SD_CARD a n) (h : Keeps c cell a n s) :
    Run (runCalls makeCall calls) s fun _ t ↦ Keeps c cell a n t := by
  refine (run_runCalls (g := fun _ (u : Unit) ↦ ((), u))
    (fun call ↦ call.2.Spares c.kind SD_CARD a n)
    (fun _ t ↦ Keeps c cell a n t) ?_ (a := ()) hspares h).mono fun _ _ ht ↦ ht.2
  intro call _ t hcall ht
  exact (run_makeCall call hcall ht).mono fun _ _ ht' ↦ ⟨rfl, ht'⟩

/-! ## The law -/

/-- **The drive with the card keeps the law.** -/
theorem run_errand_card (e : Errand) (hdrv : e.pdrv = SD_CARD) (hpresent : Present c)
    (h1 : 1 ≤ e.count.toNat) (h128 : e.count.toNat ≤ 128)
    (hspares : ∀ call ∈ e.between,
      call.2.Spares c.kind SD_CARD (home c.kind e.sector) e.count.toNat) :
    Run e.run (⟨m, c, v⟩ : Mcu Card SdVars) fun o _ ↦ ∀ bytes,
      o = some (.RES_OK, .RES_OK, bytes) → bytes = e.written := by
  have ⟨hcnt, hne, hcount⟩ := toUInt8_count h1 h128
  have hrounds : (e.count.toUInt8 - 1).toNat + 1 = e.count.toNat := (toNat_pred hne).trans hcnt
  rw [Errand.run, hdrv]
  refine (run_diskInitialize_card hpresent).bind ?_
  rintro _ s₀ ⟨rfl, -, htype, hrest⟩
  rw [if_pos rfl]
  suffices hcarry : Run e.carryOut s₀ fun o _ ↦ ∀ bytes,
      o = (.RES_OK, .RES_OK, bytes) → bytes = e.written by
    refine hcarry.bind ?_
    intro o t ho
    exact run_pure.2 fun bytes hb ↦ ho bytes (Option.some.inj hb)
  let a := home c.kind e.sector
  let n := e.count.toNat
  have hcell := hrest.cell
  have hkeeps : Keeps c s₀.dev.cell a n { s₀ with mem := e.data } :=
    ⟨htype, hcell ▸ hrest, fun _ _ _ ↦ rfl⟩
  rw [Errand.carryOut, run_bind, run_modify, hdrv]
  refine (run_diskWrite_card hkeeps e.buff e.sector hcount).bind ?_
  rintro r₁ s₁ ⟨htype₁, hrest₁, -, hwritten⟩
  rw [hrounds] at hwritten
  have hkeeps₁ : Keeps c s₁.dev.cell a n s₁ := ⟨htype₁, hrest₁, fun _ _ _ ↦ rfl⟩
  refine (run_between hspares hkeeps₁).bind ?_
  intro _ s₂ hkeeps₂
  refine run_bind.2 (run_modify.2 ?_)
  refine (run_diskRead_card (hkeeps₂.mem e.memory) e.buff' e.sector hcount).bind ?_
  rintro r₂ s₃ ⟨-, hread⟩
  refine run_read.2 ?_
  rintro bytes ho
  obtain ⟨-, rfl, rfl⟩ : r₁ = .RES_OK ∧ r₂ = .RES_OK ∧ slice s₃.mem e.buff' (512 * n) = bytes := by
    simpa using ho
  -- The read has seen all the sectors, so the write had stored them all.
  obtain ⟨hle, hmem⟩ := hread rfl
  rw [hrounds] at hle hmem
  rw [hmem, slice_overlay, Errand.written, slice]
  refine List.map_congr_left fun i hi ↦ ?_
  have hlt : i < 512 * n := List.mem_range.1 hi
  have hstay : s₂.dev.cell (512 * a + i) = s₁.dev.cell (512 * a + i) :=
    hkeeps₂.cell _ (Nat.le_add_right _ _) (by omega)
  have hstored : s₁.dev.cell (512 * a + i) = e.data (e.buff + i) := by
    rw [hwritten hle]
    exact overlay_add hlt
  exact hstay.trans hstored

/-- **No call serves `EX_FLASH`**: all three succeed, and nothing is stored or read. -/
theorem run_errand_flash (e : Errand) (hdrv : e.pdrv = EX_FLASH) (hcount : e.count ≠ 0)
    (hbetween : e.between = []) {δ : Type} [SpiDevice δ] (s : Mcu δ SdVars) :
    Run e.run s fun o t ↦ t.dev = s.dev ∧
      o = some (.RES_OK, .RES_OK, slice e.memory e.buff' (512 * e.count.toNat)) := by
  have hdrive : EX_FLASH ≠ SD_CARD := by decide
  have hinit : diskInitialize EX_FLASH s = some (0, s) := by
    rw [diskInitialize, if_neg hdrive, if_pos rfl]
    rfl
  have hwrite (t : Mcu δ SdVars) : diskWrite EX_FLASH e.buff e.sector e.count t =
      some (.RES_OK, t) := by
    rw [diskWrite, if_neg hcount, if_neg hdrive, if_pos rfl]
    rfl
  have hread (t : Mcu δ SdVars) : diskRead EX_FLASH e.buff' e.sector e.count t =
      some (.RES_OK, t) := by
    rw [diskRead, if_neg hcount, if_neg hdrive, if_pos rfl]
    rfl
  have hcarry : e.carryOut s = some ((.RES_OK, .RES_OK,
      slice e.memory e.buff' (512 * e.count.toNat)), { s with mem := e.memory }) := by
    rw [Errand.carryOut, bind_of_eq (modify_apply _ _), hdrv, bind_of_eq (hwrite _), hbetween,
      runCalls, pure_bind', bind_of_eq (modify_apply _ _), bind_of_eq (hread _), read_apply]
  rw [Errand.run, hdrv, run_bind, run_of_eq hinit, if_pos rfl, run_bind, run_of_eq hcarry, run_pure]
  exact ⟨rfl, rfl⟩

/-- Ones are written, nothing happens, and the memory is cleared before the read. -/
def lostErrand (sector count : UInt32) : Errand :=
  ⟨EX_FLASH, sector, count, fun _ ↦ 1, 0, [], fun _ ↦ 0, 0⟩

theorem not_law_flash {sector count : UInt32} (h1 : 1 ≤ count.toNat) :
    ¬ StorageLaw EX_FLASH sector count := by
  intro hlaw
  have hcount : count ≠ 0 := by
    rintro rfl
    exact absurd h1 (by decide)
  have hpresent : Present promptCard := ⟨rfl, 0, by decide, rfl⟩
  obtain ⟨o, t, hrun, ho⟩ := hlaw (lostErrand sector count) promptCard (fun _ ↦ 0)
    ⟨SD_TYPE_V1, SPI_BaudRatePrescaler_2⟩ rfl rfl rfl hpresent fun _ h ↦ absurd h List.not_mem_nil
  have hflash := (run_errand_flash (lostErrand sector count) rfl hcount rfl _).elim hrun
  have hbytes := ho _ hflash.2
  obtain ⟨k, hk⟩ : ∃ k, 512 * count.toNat = k + 1 := ⟨512 * count.toNat - 1, by omega⟩
  have hhead : (0 : UInt8) = 1 := by
    have h := congrArg List.head? hbytes
    rw [Errand.written, lostErrand, hk, slice_succ', slice_succ'] at h
    exact Option.some.inj h
  exact absurd hhead (by decide)

end Stm32F1.Sd
