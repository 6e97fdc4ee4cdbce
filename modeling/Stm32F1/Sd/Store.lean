import Stm32F1.Sd.OnCard
import Stm32F1.Lib.Calls

/-!
# The disk layer is an array of sectors

Before a conforming card, whatever its kind and its timing, `disk_read` and
`disk_write` always succeed, and between calls the card holds exactly the sectors
of an array.  A call for several sectors does to the card and to the memory what
as many calls for one sector do.
-/

namespace Stm32F1.Sd

open Prog Mcu Card

variable {m : Nat → UInt8} {c c' c'' : Card} {v : SdVars} {buf : Nat} {sector : UInt32}
  {cell : Nat → UInt8}

/-- A card of the kind and size of `c` that holds `cell` and has nothing to do, but may still be
busy for less than the driver waits. -/
structure Rest (c : Card) (cell : Nat → UInt8) (c' : Card) : Prop where
  kind : c'.kind = c.kind
  sectors : c'.sectors = c.sectors
  cell : c'.cell = cell
  mode : c'.mode = .idle
  awake : c'.waking = none
  busy : ∃ n < 0xFFFFFF, c'.out = List.replicate n 0x00

theorem Rest.still (h : Rest c cell c') : c'.Still := fun _ ha ↦
  Mode.noConfusion (h.mode.symm.trans ha)

theorem Rest.soon (h : Rest c cell c') : Soon c' := .inl ⟨h.still, h.busy⟩

theorem Rest.not_writing (h : Rest c cell c') (multi : Bool) (a : Nat) :
    c'.mode ≠ .writing multi a := fun ha ↦ Mode.noConfusion (h.mode.symm.trans ha)

/-- Deselecting a card that has nothing to do. -/
theorem Rest.deselect (h : Rest c cell c') :
    Rest c cell { c' with selected := false, rx := [] } :=
  ⟨h.kind, h.sectors, h.cell, h.mode, h.awake, h.busy⟩

theorem busyBytes_lt (c : Card) : ∃ n < 0xFFFFFF, c.busyBytes = List.replicate n 0x00 :=
  ⟨c.timing.busy c.tick, (c.timing.busy c.tick).isLt, rfl⟩

/-- The end of a transfer. -/
theorem run_deselect (h : Rest c cell c') (r : UInt8) :
    Run (do
        sdDisSelect
        pure r) (⟨m, c', v⟩ : Mcu Card SdVars) fun r' t ↦
      r' = r ∧ ∃ c', Rest c cell c' ∧ c'.selected = false ∧ t = ⟨m, c', v⟩ := by
  rw [run_bind, run_of_eq sdDisSelect_card, run_pure]
  exact ⟨rfl, _, h.deselect, rfl, rfl⟩

/-! ## Addresses -/

/-- The sector that the card finds at the address the driver sends: a byte address has 32 bits, of
which 9 are inside the sector. -/
def home (kind : CardKind) (sector : UInt32) : Nat :=
  if kind = .v2hc then sector.toNat else sector.toNat % 2 ^ 23

/-- The sectors from `sector` on, `n` of them, lie inside the card and can be addressed. -/
structure Inside (c : Card) (sector : UInt32) (n : Nat) : Prop where
  top : sector.toNat + n ≤ c.sectors
  bytes : c.kind ≠ .v2hc → sector.toNat + n ≤ 2 ^ 23

theorem Inside.home {n : Nat} (h : Inside c sector n) (hn : n ≠ 0) :
    home c.kind sector = sector.toNat := by
  rw [Sd.home]
  split
  · rfl
  · rename_i hkind
    have hbytes := h.bytes hkind
    exact Nat.mod_eq_of_lt (by omega)

/-- The address that the driver sends is that of the sector's home. -/
theorem addressed_sectorAddr (c : Card) (sector : UInt32) :
    c.addressed (sectorAddr c.kind.sdType sector).toNat =
      if home c.kind sector < c.sectors then some (home c.kind sector) else none := by
  rw [addressed]
  split
  · rename_i hkind
    have haddr : sectorAddr c.kind.sdType sector = sector := by
      rw [hkind]
      exact if_neg (not_not.2 rfl)
    rw [haddr, home, if_pos hkind]
  · rename_i hkind
    have htype : c.kind.sdType ≠ SD_TYPE_V2HC := by
      revert hkind
      cases c.kind <;> decide
    have hmul : (sector * 512).toNat = sector.toNat % 2 ^ 23 * 512 := by
      rw [UInt32.toNat_mul, show (512 : UInt32).toNat = 512 from rfl]
      exact Nat.mul_mod_mul_right 512 sector.toNat (2 ^ 23)
    rw [sectorAddr, if_pos htype, hmul, Nat.mul_mod_left, Nat.mul_div_cancel _ (by decide), home,
      if_neg hkind]
    simp only [true_and]

theorem number_cmd12 : Number CMD12 := ⟨by decide, by decide⟩
theorem number_cmd17 : Number CMD17 := ⟨by decide, by decide⟩
theorem number_cmd18 : Number CMD18 := ⟨by decide, by decide⟩
theorem number_cmd23 : Number CMD23 := ⟨by decide, by decide⟩
theorem number_cmd24 : Number CMD24 := ⟨by decide, by decide⟩
theorem number_cmd25 : Number CMD25 := ⟨by decide, by decide⟩
theorem number_cmd55 : Number CMD55 := ⟨by decide, by decide⟩

theorem react_awake (h : c.waking = none) (cmd : UInt8) (arg : Nat) :
    c.react cmd arg = c.work cmd arg := by
  rw [react, h]

/-- The reaction to a command for a sector, with what follows the reply and what begins. -/
theorem react_sector (h : c.waking = none) {cmd : UInt8}
    (hcmd : cmd = CMD17 ∨ cmd = CMD18 ∨ cmd = CMD24 ∨ cmd = CMD25) (sector : UInt32) :
    c.react cmd (sectorAddr c.kind.sdType sector).toNat =
      if home c.kind sector < c.sectors then
        if cmd = CMD17 then
          ⟨0, c.blockBytes (c.timing.lead c.tick) (home c.kind sector), .idle, false, none⟩
        else if cmd = CMD18 then
          ⟨0, c.blockBytes (c.timing.lead c.tick) (home c.kind sector),
            .reading (home c.kind sector + 1), false, none⟩
        else ⟨0, [], .writing (cmd == CMD25) (home c.kind sector), false, none⟩
      else ⟨0x20, [], .idle, false, none⟩ := by
  have h12 : cmd ≠ CMD12 := by rintro rfl; revert hcmd; decide
  have h55 : cmd ≠ CMD55 := by rintro rfl; revert hcmd; decide
  have h23 : cmd ≠ CMD23 := by rintro rfl; revert hcmd; decide
  rw [react_awake h, work, if_neg h12, if_neg (fun h ↦ h55 h.1), if_neg (fun h ↦ h23 h.1),
    if_pos hcmd, addressed_sectorAddr]
  by_cases hlt : home c.kind sector < c.sectors
  · rw [if_pos hlt, if_pos hlt]
  · rw [if_neg hlt, if_neg hlt]

/-- What a command leaves behind a card at rest. -/
theorem run_command {cmd : UInt8} (hcmd : Number cmd) (arg : UInt32) (h : Rest c cell c') :
    Run (sdSendCmd cmd arg 0x01) (⟨m, c', v⟩ : Mcu Card SdVars) fun r1 t ↦
      ∃ c'', Same c' c'' ∧ r1 = (c''.react cmd arg.toNat).r1 ∧
        t = ⟨m, c''.reacted (c''.react cmd arg.toNat), v⟩ :=
  run_sdSendCmd_card hcmd arg 0x01 h.soon h.not_writing

/-- A card that reacts by neither sending nor awaiting a block is at rest. -/
theorem Rest.enter {r : Reaction} (h : Rest c cell c') (hs : Same c' c'') (hmode : r.mode = .idle)
    (hwake : r.waking = none) (hbody : ∃ n < 0xFFFFFF, r.body = List.replicate n 0x00) :
    Rest c cell (c''.enter r) :=
  ⟨hs.kind.trans h.kind, hs.sectors.trans h.sectors, hs.cell.trans h.cell, hmode, hwake, hbody⟩

/-! ## Reading -/

/-- The card sends sector `x` next in a multiple read, after at least `lo` idle bytes, unless it
ends there. -/
structure Streaming (c : Card) (lo x : Nat) (c' : Card) : Prop where
  kind : c'.kind = c.kind
  sectors : c'.sectors = c.sectors
  cell : c'.cell = c.cell
  awake : c'.waking = none
  attentive : c'.Attentive
  mode : ∃ y, c'.mode = .reading y
  next : x < c.sectors → c'.mode = .reading (x + 1)
  block : x < c.sectors → ∃ g a b, lo ≤ g ∧ g < 65535 ∧
    c'.out = List.replicate g 0xFF ++ 0xFE :: (slice c.cell (512 * x) 512 ++ [a, b])
  ended : ¬ x < c.sectors → c'.out = []

theorem Streaming.not_writing {lo x : Nat} (h : Streaming c lo x c') (multi : Bool) (a : Nat) :
    c'.mode ≠ .writing multi a := by
  obtain ⟨y, hy⟩ := h.mode
  exact fun ha ↦ Mode.noConfusion (hy.symm.trans ha)

/-- Between blocks there is an idle byte, so the card is ready for a command at once. -/
theorem Streaming.soon {x : Nat} (h : Streaming c 1 x c') : Soon c' := by
  by_cases hx : x < c.sectors
  · obtain ⟨g, a, b, hg, -, hout⟩ := h.block hx
    obtain ⟨g, rfl⟩ : ∃ g', g = g' + 1 := ⟨g - 1, by omega⟩
    exact .inr (.inl ⟨_, hout⟩)
  · exact .inr (.inr (h.ended hx))

theorem blockBytes_eq (h : c'.cell = cell) (g x : Nat) : ∃ a b, c'.blockBytes g x =
    List.replicate g 0xFF ++ 0xFE :: (slice cell (512 * x) 512 ++ [a, b]) :=
  ⟨_, _, by rw [blockBytes, h]⟩

theorem blockBytes_ne_nil (g x : Nat) : c.blockBytes g x ≠ [] := by
  rw [blockBytes]
  exact List.append_ne_nil_of_right_ne_nil _ (List.cons_ne_nil _ _)

/-- Once sector `x` is sent, the card goes on to the next one. -/
theorem Streaming.queue {lo x : Nat} (h : Streaming c lo x c') (hx : x < c.sectors) :
    Streaming c 1 (x + 1) (c'.queue []) := by
  have hmode := h.next hx
  have hqueue : c'.queue [] = { c' with out := [] }.refill := if_pos rfl
  have hrefill : { c' with out := [] }.refill = if x + 1 < c'.sectors then
      { c' with
        out := c'.blockBytes (c'.timing.gap c'.tick + 1) (x + 1)
        mode := .reading (x + 2)
        tick := c'.tick + 1 }
      else { c' with out := [] } := by
    obtain ⟨kind, sectors, hsectors, cell, timing, tick, selected, mode, app, waking, rx, out⟩ := c'
    obtain rfl : mode = _ := hmode
    rfl
  have hsectors := h.sectors
  rw [hqueue, hrefill]
  split
  · rename_i hlt
    obtain ⟨a, b, hblock⟩ := blockBytes_eq h.cell (c'.timing.gap c'.tick + 1) (x + 1)
    have hgap := (c'.timing.gap c'.tick).isLt
    exact ⟨h.kind, h.sectors, h.cell, h.awake, ⟨h.attentive.selected, h.attentive.rx⟩, ⟨_, rfl⟩,
      fun _ ↦ rfl, fun _ ↦ ⟨_, a, b, Nat.le_add_left _ _, Nat.succ_lt_succ hgap, hblock⟩,
      fun hge ↦ absurd (hsectors ▸ hlt) hge⟩
  · rename_i hge
    exact ⟨h.kind, h.sectors, h.cell, h.awake, ⟨h.attentive.selected, h.attentive.rx⟩, ⟨_, hmode⟩,
      fun hlt ↦ absurd (hsectors ▸ hlt) hge, fun hlt ↦ absurd (hsectors ▸ hlt) hge, fun _ ↦ rfl⟩

/-- What `SD_ReadDisk` leaves behind: it goes well exactly when all the sectors exist, and then they
are in the buffer. -/
structure Fetched (c : Card) (cell m : Nat → UInt8) (v : SdVars) (buf a n : Nat) (r : UInt8)
    (t : Mcu Card SdVars) : Prop where
  rest : Rest c cell t.dev
  selected : t.dev.selected = false
  glob : t.glob = v
  ok : r = 0 ↔ a + n ≤ c.sectors
  mem : r = 0 → t.mem = overlay m buf (512 * n) fun i ↦ cell (512 * a + i)

/-- The blocks of a multiple read arrive in the buffer, up to the end of the card. -/
theorem run_readBlocks {a : Nat} (n : Nat) (ha : a < c.sectors) (h : Streaming c 0 a c') :
    Run (doWhileOk (fun buf ↦ sdRecvData buf 512) (fun buf ↦ buf + 512) buf n)
      (⟨m, c', v⟩ : Mcu Card SdVars) fun r t ↦ (∃ x, Streaming c 1 x t.dev) ∧ t.glob = v ∧
        (r = 0 ↔ a + (n + 1) ≤ c.sectors) ∧
        (r = 0 → t.mem = overlay m buf (512 * (n + 1)) fun i ↦ c.cell (512 * a + i)) := by
  refine (run_doWhileOk (fun i p t ↦ p = buf + 512 * i ∧ a + i ≤ c.sectors ∧
      ∃ c'', Streaming c (min i 1) (a + i) c'' ∧
        t = ⟨overlay m buf (512 * i) fun i ↦ c.cell (512 * a + i), c'', v⟩)
    (fun i _ t ↦ c.sectors ≤ a + i ∧ (∃ x, Streaming c 1 x t.dev) ∧ t.glob = v) ?_
    ⟨rfl, ha.le, c', h, by rw [Nat.mul_zero, overlay_zero]⟩).mono ?_
  · rintro i _ _ hi ⟨rfl, hle, c'', hs, rfl⟩
    by_cases hx : a + i < c.sectors
    · obtain ⟨g, x, y, -, hg, hout⟩ := hs.block hx
      refine .of_eq (sdRecvData_card hs.attentive hg hout _)
        ⟨fun _ ↦ ⟨?_, hx, c''.queue [], ?_, ?_⟩, fun h ↦ absurd rfl h⟩
      · rw [Nat.mul_succ, Nat.add_assoc]
      · have hmin : min (i + 1) 1 = 1 := Nat.min_eq_right (Nat.le_add_left 1 i)
        rw [hmin]
        exact hs.queue hx
      · rw [Nat.mul_succ, ← overlay_overlay_adjacent]
        simp only [Nat.mul_add, Nat.add_assoc]
    · have hpos : min i 1 = 1 := Nat.min_eq_right (by omega)
      rw [hpos] at hs
      exact .of_eq (sdRecvData_silent hs.attentive (hs.ended hx) _ _)
        ⟨fun h ↦ absurd h (by decide), fun _ ↦ ⟨Nat.le_of_not_lt hx, ⟨_, hs⟩, rfl⟩⟩
  · rintro r t ⟨hzero, hne⟩
    by_cases h0 : r = 0
    · obtain ⟨_, -, hle, c'', hs, rfl⟩ := hzero h0
      have hmin : min (n + 1) 1 = 1 := Nat.min_eq_right (Nat.le_add_left 1 n)
      rw [hmin] at hs
      exact ⟨⟨_, hs⟩, rfl, iff_of_true h0 hle, fun _ ↦ rfl⟩
    · obtain ⟨i, hi, hge, hs, hglob⟩ := hne h0
      exact ⟨hs, hglob, iff_of_false h0 (by omega), fun h ↦ absurd h h0⟩

/-- **`SD_ReadDisk`** of one sector. -/
theorem run_readOne (h : Rest c cell c') (htype : v.sdType = c.kind.sdType) :
    Run (sdReadDisk buf sector 1) (⟨m, c', v⟩ : Mcu Card SdVars)
      (Fetched c cell m v buf (home c.kind sector) 1) := by
  rw [sdReadDisk, run_bind, run_of_eq (get_apply _ _), if_pos rfl, shiftLeft_nine, ← sectorAddr,
    htype, ← h.kind]
  refine (run_command number_cmd17 _ h).bind ?_
  rintro r1 _ ⟨c₁, hsame, rfl, rfl⟩
  have hreact := react_sector (hsame.waking.trans h.awake) (.inl (rfl : CMD17 = CMD17)) sector
  rw [if_pos rfl, hsame.kind, hsame.sectors, h.sectors] at hreact
  rw [hreact, h.kind]
  by_cases hlt : home c.kind sector < c.sectors
  · obtain ⟨a, b, hblock⟩ := blockBytes_eq (hsame.cell.trans h.cell) (c₁.timing.lead c₁.tick)
      (home c.kind sector)
    have hlead := (c₁.timing.lead c₁.tick).isLt
    rw [if_pos hlt, if_pos rfl, reacted_eq_enter (.inl (blockBytes_ne_nil _ _)), run_bind,
      run_of_eq (sdRecvData_card ⟨rfl, rfl⟩ hlead hblock buf), queue_of_still fun _ ↦
        Mode.noConfusion]
    have hrest : Rest c cell { c₁.enter ⟨0, c₁.blockBytes (c₁.timing.lead c₁.tick)
        (home c.kind sector), .idle, false, none⟩ with out := [] } :=
      ⟨hsame.kind.trans h.kind, hsame.sectors.trans h.sectors, hsame.cell.trans h.cell, rfl, rfl,
        0, by decide, rfl⟩
    refine (run_deselect hrest 0).mono ?_
    rintro r _ ⟨rfl, c₂, hrest, hsel, rfl⟩
    exact ⟨hrest, hsel, rfl, iff_of_true rfl hlt, fun _ ↦ rfl⟩
  · rw [if_neg hlt, if_neg (by decide), run_bind, run_pure,
      reacted_eq_enter (.inr fun _ ↦ Mode.noConfusion)]
    refine (run_deselect (h.enter hsame rfl rfl ⟨0, by decide, rfl⟩) 0x20).mono ?_
    rintro r _ ⟨rfl, c₂, hrest, hsel, rfl⟩
    exact ⟨hrest, hsel, rfl, iff_of_false (by decide) hlt, fun h ↦ absurd h (by decide)⟩

/-- `CMD12` puts a card to rest that is not in a write. -/
theorem run_stopRead {a n : Nat} {r : UInt8} (hkind : c'.kind = c.kind)
    (hsectors : c'.sectors = c.sectors) (hcell : c'.cell = cell) (hawake : c'.waking = none)
    (hsoon : Soon c') (hmode : ∀ multi a, c'.mode ≠ .writing multi a)
    (hok : r = 0 ↔ a + n ≤ c.sectors) {m' : Nat → UInt8}
    (hmem : r = 0 → m' = overlay m buf (512 * n) fun i ↦ cell (512 * a + i)) :
    Run (do
        let _ ← sdSendCmd CMD12 0 0x01
        sdDisSelect
        pure r) (⟨m', c', v⟩ : Mcu Card SdVars) (Fetched c cell m v buf a n) := by
  refine (run_sdSendCmd_card number_cmd12 0 0x01 hsoon hmode).bind ?_
  rintro r1 _ ⟨c₁, hsame, -, rfl⟩
  have hreact : c₁.react CMD12 (0 : UInt32).toNat = ⟨0, c₁.busyBytes, .idle, false, none⟩ :=
    (react_awake (hsame.waking.trans hawake) _ _).trans (if_pos rfl)
  have hrest : Rest c cell (c₁.enter ⟨0, c₁.busyBytes, .idle, false, none⟩) :=
    ⟨hsame.kind.trans hkind, hsame.sectors.trans hsectors, hsame.cell.trans hcell, rfl, rfl,
      busyBytes_lt c₁⟩
  rw [hreact, reacted_eq_enter (.inr fun _ ↦ Mode.noConfusion)]
  refine (run_deselect hrest r).mono ?_
  rintro _ _ ⟨rfl, c₂, hrest₂, hsel, rfl⟩
  exact ⟨hrest₂, hsel, rfl, hok, hmem⟩

/-- **`SD_ReadDisk`** of several sectors. -/
theorem run_readMany {cnt : UInt8} (h1 : cnt ≠ 1) (h : Rest c cell c')
    (htype : v.sdType = c.kind.sdType) :
    Run (sdReadDisk buf sector cnt) (⟨m, c', v⟩ : Mcu Card SdVars)
      (Fetched c cell m v buf (home c.kind sector) ((cnt - 1).toNat + 1)) := by
  rw [sdReadDisk, run_bind, run_of_eq (get_apply _ _), if_neg h1, shiftLeft_nine, ← sectorAddr,
    htype, ← h.kind]
  refine (run_command number_cmd18 _ h).bind ?_
  rintro r1 _ ⟨c₁, hsame, -, rfl⟩
  have hreact := react_sector (hsame.waking.trans h.awake)
    (.inr (.inl (rfl : CMD18 = CMD18))) sector
  have h17 : CMD18 ≠ CMD17 := by decide
  rw [if_neg h17, if_pos rfl, hsame.kind, hsame.sectors, h.sectors] at hreact
  have hcell : c₁.cell = cell := hsame.cell.trans h.cell
  have hsectors : c₁.sectors = c.sectors := hsame.sectors.trans h.sectors
  rw [hreact, h.kind]
  by_cases hlt : home c.kind sector < c.sectors
  · obtain ⟨a, b, hblock⟩ := blockBytes_eq (rfl : c₁.cell = c₁.cell) (c₁.timing.lead c₁.tick)
      (home c.kind sector)
    have hlead := (c₁.timing.lead c₁.tick).isLt
    have hpos : home c.kind sector < c₁.sectors := hsectors ▸ hlt
    have hstream : Streaming c₁ 0 (home c.kind sector) (c₁.enter ⟨0,
        c₁.blockBytes (c₁.timing.lead c₁.tick) (home c.kind sector),
        .reading (home c.kind sector + 1), false, none⟩) :=
      ⟨rfl, rfl, rfl, rfl, ⟨rfl, rfl⟩, ⟨_, rfl⟩, fun _ ↦ rfl,
        fun _ ↦ ⟨_, a, b, Nat.zero_le _, hlead, hblock⟩, fun hge ↦ absurd hpos hge⟩
    rw [if_pos hlt, reacted_eq_enter (.inl (blockBytes_ne_nil _ _))]
    refine (run_readBlocks _ hpos hstream).bind ?_
    rintro r ⟨m', c₂, v'⟩ ⟨⟨x, hs⟩, rfl, hok, hmem⟩
    rw [hsectors] at hok
    rw [hcell] at hmem
    exact run_stopRead (hs.kind.trans (hsame.kind.trans h.kind)) (hs.sectors.trans hsectors)
      (hs.cell.trans hcell) hs.awake hs.soon hs.not_writing hok hmem
  · have hrest := h.enter hsame (r := ⟨0x20, [], .idle, false, none⟩) rfl rfl ⟨0, by decide, rfl⟩
    have hfirst (k : Nat) :
      Run (doWhileOk (fun buf ↦ sdRecvData buf 512) (fun buf ↦ buf + 512) buf k)
        (⟨m, c₁.enter ⟨0x20, [], .idle, false, none⟩, v⟩ : Mcu Card SdVars) fun r t ↦
          r = 1 ∧ t = ⟨m, c₁.enter ⟨0x20, [], .idle, false, none⟩, v⟩ := by
      have hsilent := sdRecvData_silent (m := m) (v := v)
        (c := c₁.enter ⟨0x20, [], .idle, false, none⟩) ⟨rfl, rfl⟩ rfl buf 512
      cases k with
      | zero => exact .of_eq hsilent ⟨rfl, rfl⟩
      | succ k =>
          rw [doWhileOk, run_bind, run_of_eq hsilent, if_neg (by decide), run_pure]
          exact ⟨rfl, rfl⟩
    rw [if_neg hlt, reacted_eq_enter (.inr fun _ ↦ Mode.noConfusion)]
    refine (hfirst _).bind ?_
    rintro r _ ⟨rfl, rfl⟩
    exact run_stopRead hrest.kind hrest.sectors hrest.cell hrest.awake hrest.soon hrest.not_writing
      (iff_of_false (by decide) (by omega)) fun h ↦ absurd h (by decide)

/-! ## Writing -/

/-- A multiple write has come to sector `x`. -/
structure Taking (c : Card) (cell : Nat → UInt8) (x : Nat) (c' : Card) : Prop where
  kind : c'.kind = c.kind
  sectors : c'.sectors = c.sectors
  cell : c'.cell = cell
  awake : c'.waking = none
  attentive : c'.Attentive
  mode : c'.mode = .writing true x
  busy : ∃ n < 0xFFFFFF, c'.out = List.replicate n 0x00

/-- `cell'` is `cell` but for some of the `n` sectors from `a` on. -/
def Aside (cell cell' : Nat → UInt8) (a n : Nat) : Prop :=
  ∀ x, x < 512 * a ∨ 512 * (a + n) ≤ x → cell' x = cell x

theorem aside_overlay {a k n : Nat} (hk : k ≤ n) (f : Nat → UInt8) :
    Aside cell (overlay cell (512 * a) (512 * k) f) a n := by
  intro x hx
  exact overlay_of_notMem (by omega)

/-- What `SD_WriteDisk` leaves behind: when all the sectors exist it goes well and they hold what
was in the buffer; in any case no other sector is touched. -/
structure Landed (c : Card) (cell m : Nat → UInt8) (v : SdVars) (buf a n : Nat) (r : UInt8)
    (t : Mcu Card SdVars) : Prop where
  rest : Rest c t.dev.cell t.dev
  mem : t.mem = m
  glob : t.glob = v
  aside : Aside cell t.dev.cell a n
  ok : a + n ≤ c.sectors → r = 0 ∧
    t.dev.cell = overlay cell (512 * a) (512 * n) fun i ↦ m (buf + i)

/-- The end of a write. -/
theorem run_writeEnd {a n : Nat} {r : UInt8} {cell' : Nat → UInt8} (h : Rest c cell' c')
    (haside : Aside cell cell' a n) (hok : a + n ≤ c.sectors → r = 0 ∧
      cell' = overlay cell (512 * a) (512 * n) fun i ↦ m (buf + i)) :
    Run (do
        sdDisSelect
        pure r) (⟨m, c', v⟩ : Mcu Card SdVars) (Landed c cell m v buf a n) := by
  refine (run_deselect h r).mono ?_
  rintro _ _ ⟨rfl, c₂, hrest, -, rfl⟩
  have hcell : c₂.cell = cell' := hrest.cell
  refine ⟨?_, rfl, rfl, ?_, ?_⟩
  · dsimp only
    rwa [hcell]
  · dsimp only
    rwa [hcell]
  · dsimp only
    rwa [hcell]

/-- **`SD_WriteDisk`** of one sector. -/
theorem run_writeOne (h : Rest c cell c') (htype : v.sdType = c.kind.sdType) :
    Run (sdWriteDisk buf sector 1) (⟨m, c', v⟩ : Mcu Card SdVars)
      (Landed c cell m v buf (home c.kind sector) 1) := by
  rw [sdWriteDisk, run_bind, run_of_eq (get_apply _ _), if_pos rfl, ← sectorAddr, htype, ← h.kind]
  refine (run_command number_cmd24 _ h).bind ?_
  rintro r1 _ ⟨c₁, hsame, rfl, rfl⟩
  have hreact := react_sector (hsame.waking.trans h.awake)
    (.inr (.inr (.inl (rfl : CMD24 = CMD24)))) sector
  have h17 : CMD24 ≠ CMD17 := by decide
  have h18 : CMD24 ≠ CMD18 := by decide
  rw [if_neg h17, if_neg h18, hsame.kind, hsame.sectors, h.sectors] at hreact
  rw [hreact, h.kind]
  by_cases hlt : home c.kind sector < c.sectors
  · have hpos : home c.kind sector < c₁.sectors := (hsame.sectors.trans h.sectors) ▸ hlt
    let c₂ : Card := c₁.enter ⟨0, [], .writing (CMD24 == CMD25) (home c.kind sector), false, none⟩
    have hmode : c₂.mode = .writing false (home c.kind sector) := rfl
    have hsend : sdSendBlock buf 0xFE (⟨m, c₂, v⟩ : Mcu Card SdVars) =
        some (0, ⟨m, c₂.written false (home c.kind sector) fun i ↦ m (buf + i), v⟩) :=
      sdSendBlock_card ⟨rfl, rfl⟩ hmode hpos (by decide : 0 < 0xFFFFFF) rfl buf
    rw [if_pos hlt, if_pos rfl, reacted_eq_enter (.inr fun _ ↦ Mode.noConfusion), run_bind,
      run_of_eq hsend]
    have hrest : Rest c (overlay cell (512 * home c.kind sector) (512 * 1) fun i ↦ m (buf + i))
        (c₂.written false (home c.kind sector) fun i ↦ m (buf + i)) := by
      refine ⟨hsame.kind.trans h.kind, hsame.sectors.trans h.sectors, ?_, rfl, rfl, busyBytes_lt c₂⟩
      rw [← hsame.cell.trans h.cell]
      rfl
    exact run_writeEnd hrest (aside_overlay le_rfl _) fun _ ↦ ⟨rfl, rfl⟩
  · rw [if_neg hlt, if_neg (by decide), run_bind, run_pure,
      reacted_eq_enter (.inr fun _ ↦ Mode.noConfusion)]
    exact run_writeEnd (h.enter hsame rfl rfl ⟨0, by decide, rfl⟩) (fun _ _ ↦ rfl)
      fun hle ↦ absurd hle hlt

/-- The blocks of a multiple write are stored, up to the end of the card. -/
theorem run_writeBlocks {a : Nat} (n : Nat) (ha : a < c.sectors) (h : Taking c cell a c') :
    Run (doWhileOk (fun buf ↦ sdSendBlock buf 0xFC) (fun buf ↦ buf + 512) buf n)
      (⟨m, c', v⟩ : Mcu Card SdVars) fun _ t ↦ ∃ cell' x c'', Taking c cell' x c'' ∧
        t = ⟨m, c'', v⟩ ∧ Aside cell cell' a (n + 1) ∧ (a + (n + 1) ≤ c.sectors →
          cell' = overlay cell (512 * a) (512 * (n + 1)) fun i ↦ m (buf + i)) := by
  refine (run_doWhileOk (fun i p t ↦ p = buf + 512 * i ∧ a + i ≤ c.sectors ∧ ∃ c'', Taking c
      (overlay cell (512 * a) (512 * i) fun i ↦ m (buf + i)) (a + i) c'' ∧ t = ⟨m, c'', v⟩)
    (fun i _ t ↦ c.sectors ≤ a + i ∧ ∃ x c'', Taking c
      (overlay cell (512 * a) (512 * i) fun i ↦ m (buf + i)) x c'' ∧ t = ⟨m, c'', v⟩) ?_
    ⟨rfl, ha.le, c', by rw [Nat.mul_zero, overlay_zero]; exact h, rfl⟩).mono ?_
  · rintro i _ _ hi ⟨rfl, hle, c'', ht, rfl⟩
    obtain ⟨k, hk, hout⟩ := ht.busy
    have hsectors := ht.sectors
    by_cases hx : a + i < c.sectors
    · refine .of_eq (sdSendBlock_card ht.attentive ht.mode (hsectors ▸ hx) hk hout _)
        ⟨fun _ ↦ ⟨?_, hx, c''.written true (a + i) fun j ↦ m (buf + 512 * i + j), ?_, rfl⟩,
          fun h ↦ absurd rfl h⟩
      · rw [Nat.mul_succ, Nat.add_assoc]
      · refine ⟨ht.kind, ht.sectors, ?_, ht.awake, ⟨ht.attentive.selected, rfl⟩, rfl,
          busyBytes_lt _⟩
        have hcell : (c''.written true (a + i) fun j ↦ m (buf + 512 * i + j)).cell =
            overlay c''.cell (512 * (a + i)) 512 fun j ↦ m (buf + 512 * i + j) := rfl
        rw [hcell, Nat.mul_succ, ← overlay_overlay_adjacent, ← ht.cell]
        simp only [Nat.mul_add, Nat.add_assoc]
    · have hrefuse := sdSendBlock_refused (m := m) (v := v) ht.attentive ht.mode (hsectors ▸ hx) hk
        hout (buf + 512 * i)
      refine .of_eq hrefuse ⟨fun h ↦ absurd h (by decide), fun _ ↦ ⟨Nat.le_of_not_lt hx, a + i + 1,
        c''.refused (a + i), ?_, rfl⟩⟩
      exact ⟨ht.kind, ht.sectors, ht.cell, ht.awake, ⟨ht.attentive.selected, rfl⟩, rfl, 0,
        by decide, rfl⟩
  · rintro r t ⟨hzero, hne⟩
    by_cases h0 : r = 0
    · obtain ⟨_, -, -, c'', ht, rfl⟩ := hzero h0
      exact ⟨_, _, c'', ht, rfl, aside_overlay le_rfl _, fun _ ↦ rfl⟩
    · obtain ⟨i, hi, hge, x, c'', ht, rfl⟩ := hne h0
      exact ⟨_, x, c'', ht, rfl, aside_overlay (Nat.le_succ_of_le hi) _,
        fun hle ↦ absurd hle (by omega)⟩

/-- A command that only announces something leaves the card at rest, whatever it replies. -/
theorem react_announce {cmd : UInt8} (hcmd : cmd = CMD55 ∨ cmd = CMD23) (h : c.waking = none)
    (arg : Nat) : (c.react cmd arg).body = [] ∧ (c.react cmd arg).mode = .idle ∧
      (c.react cmd arg).waking = none := by
  have h12 : cmd ≠ CMD12 := by rintro rfl; revert hcmd; decide
  have hsector : ¬ (cmd = CMD17 ∨ cmd = CMD18 ∨ cmd = CMD24 ∨ cmd = CMD25) := by
    rcases hcmd with rfl | rfl <;> decide
  have hother : cmd ≠ CMD0 ∧ cmd ≠ CMD1 ∧ cmd ≠ CMD41 ∧ cmd ≠ CMD16 ∧ cmd ≠ CMD58 := by
    rcases hcmd with rfl | rfl <;> decide
  have hbegins : ¬ c.Begins cmd := by
    rintro (⟨h41, -⟩ | ⟨h1, -⟩)
    · exact hother.2.2.1 h41
    · exact hother.2.1 h1
  rw [react_awake h, work, if_neg h12, if_neg hsector, if_neg hother.1, if_neg hbegins,
    if_neg hother.2.2.2.1, if_neg hother.2.2.2.2]
  split
  · exact ⟨rfl, rfl, rfl⟩
  · split <;> exact ⟨rfl, rfl, rfl⟩

theorem run_announce {cmd : UInt8} (hcmd : cmd = CMD55 ∨ cmd = CMD23) (arg : UInt32)
    (h : Rest c cell c') :
    Run (sdSendCmd cmd arg 0x01) (⟨m, c', v⟩ : Mcu Card SdVars) fun _ t ↦
      ∃ c'', Rest c cell c'' ∧ t = ⟨m, c'', v⟩ := by
  have hnumber : Number cmd := by
    rcases hcmd with rfl | rfl
    · exact number_cmd55
    · exact number_cmd23
  refine (run_command hnumber arg h).mono ?_
  rintro _ _ ⟨c₁, hsame, -, rfl⟩
  obtain ⟨hbody, hmode, hwake⟩ := react_announce hcmd (hsame.waking.trans h.awake) arg.toNat
  refine ⟨_, h.enter hsame hmode hwake ⟨0, by decide, hbody⟩, ?_⟩
  rw [reacted_eq_enter (.inr fun a ha ↦ Mode.noConfusion (hmode.symm.trans ha))]

theorem run_preErase_card (cnt : UInt8) (h : Rest c cell c') :
    Run (sdPreErase cnt) (⟨m, c', v⟩ : Mcu Card SdVars) fun _ t ↦
      ∃ c'', Rest c cell c'' ∧ t = ⟨m, c'', v⟩ := by
  rw [sdPreErase, run_bind, run_of_eq (get_apply _ _), run_ite]
  split
  · refine (run_announce (.inl rfl) _ h).bind ?_
    rintro _ _ ⟨c₁, h₁, rfl⟩
    refine (run_announce (.inr rfl) _ h₁).bind ?_
    rintro _ _ ⟨c₂, h₂, rfl⟩
    exact run_pure.2 ⟨c₂, h₂, rfl⟩
  · exact run_pure.2 ⟨c', h, rfl⟩

/-- **`SD_WriteDisk`** of several sectors. -/
theorem run_writeMany {cnt : UInt8} (h1 : cnt ≠ 1) (h : Rest c cell c')
    (htype : v.sdType = c.kind.sdType) :
    Run (sdWriteDisk buf sector cnt) (⟨m, c', v⟩ : Mcu Card SdVars)
      (Landed c cell m v buf (home c.kind sector) ((cnt - 1).toNat + 1)) := by
  rw [sdWriteDisk, run_bind, run_of_eq (get_apply _ _), if_neg h1, ← sectorAddr, htype]
  refine (run_preErase_card cnt h).bind ?_
  rintro _ _ ⟨c₀, hr, rfl⟩
  rw [← hr.kind]
  refine (run_command number_cmd25 _ hr).bind ?_
  rintro r1 _ ⟨c₁, hsame, rfl, rfl⟩
  have hreact := react_sector (hsame.waking.trans hr.awake)
    (.inr (.inr (.inr (rfl : CMD25 = CMD25)))) sector
  have h17 : CMD25 ≠ CMD17 := by decide
  have h18 : CMD25 ≠ CMD18 := by decide
  rw [if_neg h17, if_neg h18, hsame.kind, hsame.sectors, hr.sectors] at hreact
  rw [hreact, hr.kind]
  by_cases hlt : home c.kind sector < c.sectors
  · have htaking : Taking c cell (home c.kind sector)
        (c₁.enter ⟨0, [], .writing (CMD25 == CMD25) (home c.kind sector), false, none⟩) :=
      ⟨hsame.kind.trans hr.kind, hsame.sectors.trans hr.sectors, hsame.cell.trans hr.cell,
        rfl, ⟨rfl, rfl⟩, rfl, 0, by decide, rfl⟩
    rw [if_pos hlt, if_pos rfl, reacted_eq_enter (.inr fun _ ↦ Mode.noConfusion), bind_assoc']
    refine (run_writeBlocks _ hlt htaking).bind ?_
    rintro r _ ⟨cell', x, c₂, ht, rfl, haside, hall⟩
    obtain ⟨k, hk, hout⟩ := ht.busy
    rw [run_bind, run_of_eq (sdSendBlock_stop_card ht.attentive ht.mode hk hout 0)]
    have hrest : Rest c cell'
        { c₂ with mode := .idle, tick := c₂.tick + 1, out := c₂.busyBytes } :=
      ⟨ht.kind, ht.sectors, ht.cell, rfl, ht.awake, busyBytes_lt c₂⟩
    exact run_writeEnd hrest haside fun hle ↦ ⟨rfl, hall hle⟩
  · rw [if_neg hlt, if_neg (by decide), run_bind, run_pure,
      reacted_eq_enter (.inr fun _ ↦ Mode.noConfusion)]
    exact run_writeEnd (hr.enter hsame rfl rfl ⟨0, by decide, rfl⟩) (fun _ _ ↦ rfl)
      fun hle ↦ absurd hle (by omega)

/-! ## The disk layer -/

inductive Direction
  | read
  | write
deriving DecidableEq, Repr

/-- A transfer between the memory and the card. -/
structure Transfer where
  dir : Direction
  buff : Nat
  sector : UInt32
  count : UInt32

namespace Transfer

/-- The transfer as the disk layer makes it. -/
def run {δ : Type} [SpiDevice δ] (t : Transfer) : Prog (Mcu δ SdVars) DResult :=
  match t.dir with
  | .read => diskRead SD_CARD t.buff t.sector t.count
  | .write => diskWrite SD_CARD t.buff t.sector t.count

/-- What the card holds when the first `n` sectors of the transfer are through. -/
def stored (t : Transfer) (m cell : Nat → UInt8) (n : Nat) : Nat → UInt8 :=
  match t.dir with
  | .read => cell
  | .write => overlay cell (512 * t.sector.toNat) (512 * n) fun i ↦ m (t.buff + i)

/-- What the memory holds when the first `n` sectors of the transfer are through. -/
def loaded (t : Transfer) (m cell : Nat → UInt8) (n : Nat) : Nat → UInt8 :=
  match t.dir with
  | .read => overlay m t.buff (512 * n) fun i ↦ cell (512 * t.sector.toNat + i)
  | .write => m

/-- What may be asked of the disk layer. -/
structure Valid (c : Card) (t : Transfer) : Prop where
  one_le : 1 ≤ t.count.toNat
  le_128 : t.count.toNat ≤ 128
  inside : Inside c t.sector t.count.toNat

end Transfer

/-- `SD_WriteDisk`, whatever the count: a count of 0 stands for 256. -/
theorem run_writeDisk (cnt : UInt8) (h : Rest c cell c') (htype : v.sdType = c.kind.sdType) :
    Run (sdWriteDisk buf sector cnt) (⟨m, c', v⟩ : Mcu Card SdVars)
      (Landed c cell m v buf (home c.kind sector) ((cnt - 1).toNat + 1)) := by
  by_cases h1 : cnt = 1
  · subst h1
    exact run_writeOne h htype
  · exact run_writeMany h1 h htype

/-- `SD_ReadDisk`, whatever the count. -/
theorem run_readDisk (cnt : UInt8) (h : Rest c cell c') (htype : v.sdType = c.kind.sdType) :
    Run (sdReadDisk buf sector cnt) (⟨m, c', v⟩ : Mcu Card SdVars)
      (Fetched c cell m v buf (home c.kind sector) ((cnt - 1).toNat + 1)) := by
  by_cases h1 : cnt = 1
  · subst h1
    exact run_readOne h htype
  · exact run_readMany h1 h htype

/-- **One call of the disk layer**: it succeeds, and stores or loads exactly the sectors asked. -/
theorem run_transfer (t : Transfer) (ht : t.Valid c) (h : Rest c cell c')
    (htype : v.sdType = c.kind.sdType) :
    Run t.run (⟨m, c', v⟩ : Mcu Card SdVars) fun r s ↦ r = .RES_OK ∧
      ∃ c'', Rest c (t.stored m cell t.count.toNat) c'' ∧
        s = ⟨t.loaded m cell t.count.toNat, c'', v⟩ := by
  obtain ⟨dir, buff, sector, count⟩ := t
  obtain ⟨hone, h128, hin⟩ := ht
  dsimp only at hone h128 hin ⊢
  have ⟨hcnt, hne, hcount⟩ := toUInt8_count hone h128
  have hrounds : (count.toUInt8 - 1).toNat + 1 = count.toNat := (toNat_pred hne).trans hcnt
  have hhome : home c.kind sector = sector.toNat := hin.home (Nat.one_le_iff_ne_zero.1 hone)
  cases dir with
  | write =>
      change Run (diskWrite SD_CARD buff sector count) _ _
      rw [diskWrite, if_neg hcount, if_pos rfl]
      refine (run_writeDisk _ h htype).bind ?_
      rw [hrounds, hhome]
      rintro r ⟨m', c₁, v'⟩ ⟨hrest, rfl, rfl, -, hok⟩
      obtain ⟨rfl, hcell⟩ := hok hin.top
      refine run_pure.2 ⟨rfl, c₁, ?_, rfl⟩
      dsimp only at hrest hcell
      rwa [hcell] at hrest
  | read =>
      change Run (diskRead SD_CARD buff sector count) _ _
      rw [diskRead, if_neg hcount, if_pos rfl, bind_assoc']
      refine (run_readDisk _ h htype).bind ?_
      rw [hrounds, hhome]
      rintro r ⟨m', c₁, v'⟩ ⟨hrest, -, rfl, hok, hmem⟩
      obtain rfl : r = 0 := hok.2 hin.top
      obtain rfl : m' = _ := hmem rfl
      exact run_pure.2 ⟨rfl, c₁, hrest, rfl⟩

/-! ## Sequences of calls -/

/-- What a caller gets to see of a transfer: for a read, the contents of the buffer. -/
def Transfer.answer (t : Transfer) (bytes : List UInt8) : List UInt8 :=
  match t.dir with
  | .read => bytes
  | .write => []

/-- A call: the memory as the caller leaves it, then the transfer. -/
def perform {δ : Type} [SpiDevice δ] (call : (Nat → UInt8) × Transfer) :
    Prog (Mcu δ SdVars) (DResult × List UInt8) := do
  Prog.modify fun s ↦ { s with mem := call.1 }
  let r ← call.2.run
  Prog.read fun s ↦ (r, call.2.answer (slice s.mem call.2.buff (512 * call.2.count.toNat)))

/-- The call made to an array of sectors. -/
def onSectors (call : (Nat → UInt8) × Transfer) (cell : Nat → UInt8) :
    (DResult × List UInt8) × (Nat → UInt8) :=
  ((.RES_OK, call.2.answer (slice cell (512 * call.2.sector.toNat) (512 * call.2.count.toNat))),
    call.2.stored call.1 cell call.2.count.toNat)

/-- The driver knows the kind of the card, which is at rest with `cell`. -/
def Holding (c : Card) (cell : Nat → UInt8) (s : Mcu Card SdVars) : Prop :=
  s.glob.sdType = c.kind.sdType ∧ Rest c cell s.dev

theorem run_perform (call : (Nat → UInt8) × Transfer) (cell : Nat → UInt8) (s : Mcu Card SdVars)
    (hv : call.2.Valid c) (hs : Holding c cell s) :
    Run (perform call) s fun o s' ↦ o = (onSectors call cell).1 ∧
      Holding c (onSectors call cell).2 s' := by
  obtain ⟨m₀, c', v⟩ := s
  obtain ⟨htype, hrest⟩ := hs
  obtain ⟨m, t⟩ := call
  refine run_bind.2 (run_modify.2 ((run_transfer t hv hrest htype).bind ?_))
  rintro r _ ⟨rfl, c'', hrest', rfl⟩
  refine run_read.2 ⟨?_, htype, hrest'⟩
  obtain ⟨dir, buff, sector, count⟩ := t
  cases dir with
  | write => rfl
  | read =>
      rw [Transfer.loaded, slice_overlay]
      rfl

/-! ## One call for many sectors -/

/-- The transfer of the `i`-th sector of a transfer, alone. -/
def Transfer.piece (t : Transfer) (i : Nat) : Transfer :=
  { t with buff := t.buff + 512 * i, sector := t.sector + UInt32.ofNat i, count := 1 }

theorem toNat_piece {t : Transfer} (ht : t.Valid c) {i : Nat} (hi : i < t.count.toNat) :
    (t.piece i).sector.toNat = t.sector.toNat + i := by
  have htop := ht.inside.top
  have hle := c.sectors_le
  change (t.sector + UInt32.ofNat i).toNat = _
  rw [UInt32.toNat_add, UInt32.toNat_ofNat', Nat.mod_eq_of_lt (by omega : i < 2 ^ 32)]
  exact Nat.mod_eq_of_lt (by omega)

theorem Transfer.Valid.piece {t : Transfer} (ht : t.Valid c) {i : Nat} (hi : i < t.count.toNat) :
    (t.piece i).Valid c := by
  refine ⟨le_rfl, (Nat.one_le_ofNat : 1 ≤ 128), ?_, fun hkind ↦ ?_⟩
  · have htop := ht.inside.top
    have hone : (t.piece i).count.toNat = 1 := rfl
    rw [toNat_piece ht hi, hone]
    omega
  · have hbytes := ht.inside.bytes hkind
    have hone : (t.piece i).count.toNat = 1 := rfl
    rw [toNat_piece ht hi, hone]
    omega

/-- One more piece. -/
theorem stored_piece {t : Transfer} (ht : t.Valid c) {i : Nat} (hi : i < t.count.toNat) :
    (t.piece i).stored (t.loaded m cell i) (t.stored m cell i) 1 = t.stored m cell (i + 1) := by
  have hsector := toNat_piece ht hi
  obtain ⟨dir, buff, sector, count⟩ := t
  cases dir with
  | read => rfl
  | write =>
      have hgrow := overlay_overlay_adjacent (m := cell) (a := 512 * sector.toNat) (n := 512 * i)
        (k := 512) (f := fun j ↦ m (buff + j))
      simp only [Transfer.piece, Transfer.stored, Transfer.loaded] at hsector ⊢
      rw [hsector, Nat.mul_add, Nat.mul_one, Nat.mul_succ, ← hgrow]
      simp only [Nat.add_assoc]

theorem loaded_piece {t : Transfer} (ht : t.Valid c) {i : Nat} (hi : i < t.count.toNat) :
    (t.piece i).loaded (t.loaded m cell i) (t.stored m cell i) 1 = t.loaded m cell (i + 1) := by
  have hsector := toNat_piece ht hi
  obtain ⟨dir, buff, sector, count⟩ := t
  cases dir with
  | write => rfl
  | read =>
      have hgrow := overlay_overlay_adjacent (m := m) (a := buff) (n := 512 * i) (k := 512)
        (f := fun j ↦ cell (512 * sector.toNat + j))
      simp only [Transfer.piece, Transfer.stored, Transfer.loaded] at hsector ⊢
      rw [hsector, Nat.mul_add, Nat.mul_one, Nat.mul_succ, ← hgrow]
      simp only [Nat.add_assoc]

/-- The pieces of a transfer, one call each. -/
theorem run_pieces (t : Transfer) (ht : t.Valid c) (h : Rest c cell c')
    (htype : v.sdType = c.kind.sdType) :
    Run (runCalls (fun i ↦ (t.piece i).run) (List.range t.count.toNat))
      (⟨m, c', v⟩ : Mcu Card SdVars) fun rs s ↦ (∀ r ∈ rs, r = .RES_OK) ∧
      ∃ c'', Rest c (t.stored m cell t.count.toNat) c'' ∧
        s = ⟨t.loaded m cell t.count.toNat, c'', v⟩ := by
  refine run_runCalls_range (fun i (s : Mcu Card SdVars) ↦ ∃ c'',
    Rest c (t.stored m cell i) c'' ∧ s = ⟨t.loaded m cell i, c'', v⟩) ?_ ?_
  · rintro i _ hi ⟨c₁, hrest, rfl⟩
    refine (run_transfer (t.piece i) (ht.piece hi) hrest htype).mono ?_
    rintro r _ ⟨rfl, c₂, hrest₂, rfl⟩
    have hone : (t.piece i).count.toNat = 1 := rfl
    rw [hone, stored_piece ht hi] at hrest₂
    refine ⟨rfl, c₂, hrest₂, ?_⟩
    rw [hone, loaded_piece ht hi]
  · have hstored : t.stored m cell 0 = cell := by
      rw [Transfer.stored]
      split
      · rfl
      · rw [Nat.mul_zero, overlay_zero]
    have hloaded : t.loaded m cell 0 = m := by
      rw [Transfer.loaded]
      split
      · rw [Nat.mul_zero, overlay_zero]
      · rfl
    rw [hstored, hloaded]
    exact ⟨c', h, rfl⟩

/-- **The disk layer is an array of sectors.**  Before any conforming card at rest, every sequence
of calls succeeds, every read answers with the sectors the array holds, and the card ends with the
sectors of the array; and a call for several sectors leaves the same sectors and the same memory as
as many calls for one sector. -/
theorem sd_refines_sector_array (hrest : Rest c c.cell c) (htype : v.sdType = c.kind.sdType) :
    (∀ calls : List ((Nat → UInt8) × Transfer), (∀ call ∈ calls, call.2.Valid c) →
      Run (runCalls perform calls) (⟨m, c, v⟩ : Mcu Card SdVars) fun answers s ↦
        answers = (absCalls onSectors calls c.cell).1 ∧
          Holding c (absCalls onSectors calls c.cell).2 s) ∧
    ∀ t : Transfer, t.Valid c → Run t.run (⟨m, c, v⟩ : Mcu Card SdVars) fun r₁ s₁ ↦
      Run (runCalls (fun i ↦ (t.piece i).run) (List.range t.count.toNat))
        (⟨m, c, v⟩ : Mcu Card SdVars) fun rs s₂ ↦
          r₁ = .RES_OK ∧ (∀ r ∈ rs, r = .RES_OK) ∧ s₁.mem = s₂.mem ∧ s₁.dev.cell = s₂.dev.cell := by
  refine ⟨fun calls hcalls ↦ ?_, fun t ht ↦ ?_⟩
  · exact run_runCalls (fun call ↦ call.2.Valid c) (Holding c)
      (fun call cell s ↦ run_perform call cell s) hcalls ⟨htype, hrest⟩
  · refine (run_transfer t ht hrest htype).mono ?_
    rintro r₁ _ ⟨hr₁, c₁, h₁, rfl⟩
    refine (run_pieces t ht hrest htype).mono ?_
    rintro rs _ ⟨hrs, c₂, h₂, rfl⟩
    exact ⟨hr₁, hrs, rfl, h₁.cell.trans h₂.cell.symm⟩

/-- A byte-addressed card of four sectors that never delays anything. -/
def promptCard : Card where
  kind := .v1
  sectors := 4
  sectors_le := by decide
  cell := fun i ↦ UInt8.ofNat i
  timing := ⟨fun _ ↦ 0, fun _ ↦ 0, fun _ ↦ 0, fun _ ↦ 0, fun _ ↦ 0, fun _ ↦ (0, 0),
    fun _ ↦ 0⟩
  tick := 0
  selected := false
  mode := .idle
  app := false
  waking := none
  rx := []
  out := []

/-- Two sectors are written and read back in one call each. -/
theorem sd_refines_sector_array_prompt :
    Run (runCalls perform [(fun _ ↦ 0x5A, ⟨.write, 0, 1, 2⟩), (fun _ ↦ 0, ⟨.read, 0, 1, 2⟩)])
      (⟨fun _ ↦ 0, promptCard, SD_TYPE_V1, SPI_BaudRatePrescaler_256⟩ : Mcu Card SdVars)
      fun answers s ↦
        answers = [(.RES_OK, []), (.RES_OK, List.replicate (512 * 2) 0x5A)] ∧
          ∀ i < 512, s.dev.cell i = UInt8.ofNat i := by
  have hvalid : ∀ dir, Transfer.Valid promptCard ⟨dir, 0, 1, 2⟩ := by
    have hone : 1 ≤ (2 : UInt32).toNat := by decide
    have h128 : (2 : UInt32).toNat ≤ 128 := by decide
    have hinside : Inside promptCard 1 (2 : UInt32).toNat := ⟨by decide, fun _ ↦ by decide⟩
    exact fun dir ↦ ⟨hone, h128, hinside⟩
  have hrest : Rest promptCard promptCard.cell promptCard :=
    ⟨rfl, rfl, rfl, rfl, rfl, 0, by decide, rfl⟩
  have hcalls := (sd_refines_sector_array (m := fun _ ↦ 0) (c := promptCard)
    (v := ⟨SD_TYPE_V1, SPI_BaudRatePrescaler_256⟩) hrest rfl).1
    [(fun _ ↦ 0x5A, ⟨.write, 0, 1, 2⟩), (fun _ ↦ 0, ⟨.read, 0, 1, 2⟩)] (by simp [hvalid])
  refine hcalls.mono ?_
  rintro answers s ⟨rfl, -, hs⟩
  refine ⟨?_, fun i hi ↦ ?_⟩
  · simp only [absCalls, onSectors, Transfer.answer, Transfer.stored, slice_overlay,
      List.map_const', List.length_range]
    rfl
  · have hcell : s.dev.cell = overlay promptCard.cell (512 * (1 : UInt32).toNat)
        (512 * (2 : UInt32).toNat) fun _ ↦ 0x5A := hs.cell
    have hlt : i < 512 * (1 : UInt32).toNat := hi
    rw [hcell, overlay_of_notMem (.inl hlt), promptCard]

end Stm32F1.Sd
