import Stm32F1.Sd.Store

/-!
# A card is identified

`disk_initialize` takes a conforming card of any kind, reset or at work, to rest:
it reports success, `SD_Type` is the kind of the card, and the sectors are what
they were.  A card that was reset turns down fewer requests to begin than the
driver makes.
-/

namespace Stm32F1.Sd

open Prog Mcu Card

variable {m : Nat → UInt8} {c c' c'' : Card} {v : SdVars} {cell : Nat → UInt8}

/-! ## The replies of a card that was reset -/

/-- A card of the kind and size of `c` between two commands of `SD_Initialize`: it turns down the
requests to begin that are in `w`, expects the second part of an application command or not, and
has `out` left to say. -/
structure Between (c : Card) (cell : Nat → UInt8) (w : Option Nat) (app : Bool) (out : List UInt8)
    (c' : Card) : Prop where
  kind : c'.kind = c.kind
  sectors : c'.sectors = c.sectors
  cell : c'.cell = cell
  mode : c'.mode = .idle
  waking : c'.waking = w
  app : c'.app = app
  attentive : c'.Attentive
  out : c'.out = out

/-- How many requests to begin are turned down yet. -/
def left : Option Nat → Nat
  | some n => n
  | none => 0

/-- One request later. -/
def later : Option Nat → Option Nat
  | some (n + 1) => some n
  | _ => none

/-- The reply of a card that may be waking: bit 0 tells that it has not begun. -/
def stirring (w : Option Nat) : UInt8 := if left w = 0 then 0 else 1

theorem left_later (w : Option Nat) : left (later w) = left w - 1 := by
  rcases w with _ | _ | n <;> rfl

theorem later_of_left {w : Option Nat} (h : left w = 0) : later w = none := by
  rcases w with _ | _ | n
  · rfl
  · rfl
  · cases h

variable {w : Option Nat} {app : Bool}

/-- Any card answers `CMD0` by beginning anew. -/
theorem react_cmd0 (c : Card) (arg : Nat) : c.react CMD0 arg = c.reset := by
  have h : ¬ (CMD0 = CMD17 ∨ CMD0 = CMD18 ∨ CMD0 = CMD24 ∨ CMD0 = CMD25) := by decide
  have h55 : ¬ (CMD0 = CMD55 ∧ c.kind ≠ .mmc) := fun h ↦ absurd h.1 (by decide)
  have h23 : ¬ (CMD0 = CMD23 ∧ c.app) := fun h ↦ absurd h.1 (by decide)
  rw [react]
  split
  · exact if_pos rfl
  · rw [work, if_neg (by decide), if_neg h55, if_neg h23, if_neg h, if_pos rfl]

/-- A request to begin. -/
theorem react_begins {cmd : UInt8} (hw : c.waking = w) (h : c.Begins cmd) (arg : Nat) :
    c.react cmd arg = ⟨stirring w, [], .idle, false, later w⟩ := by
  have hnumber : ∀ x, (x = CMD41 ∨ x = CMD1) → x ≠ CMD0 ∧ x ≠ CMD8 ∧ x ≠ CMD12 ∧ x ≠ CMD23 ∧
      x ≠ CMD55 ∧ ¬ (x = CMD17 ∨ x = CMD18 ∨ x = CMD24 ∨ x = CMD25) := by
    rintro x (rfl | rfl) <;> decide
  obtain ⟨h0, h8, h12, h23, h55, hsector⟩ := hnumber cmd (h.imp And.left And.left)
  rw [react, hw]
  cases w with
  | some n =>
      dsimp only
      rw [rouse, if_neg h0, if_neg fun h ↦ h8 h.1, if_neg fun h ↦ h55 h.1, if_pos h]
      cases n with
      | zero => rfl
      | succ n => rfl
  | none =>
      dsimp only
      rw [work, if_neg h12, if_neg fun h ↦ h55 h.1, if_neg fun h ↦ h23 h.1, if_neg hsector,
        if_neg h0, if_pos h]
      rfl

/-- `CMD55` to an SD card announces the other command. -/
theorem react_cmd55 (hw : c.waking = w) (hkind : c.kind ≠ .mmc) (arg : Nat) :
    c.react CMD55 arg = ⟨if w = none then 0 else 1, [], .idle, true, w⟩ := by
  rw [react, hw]
  cases w with
  | some n =>
      dsimp only
      rw [rouse, if_neg (by decide), if_neg fun h ↦ absurd h.1 (by decide), if_pos ⟨rfl, hkind⟩,
        if_neg (Option.some_ne_none n)]
  | none =>
      dsimp only
      rw [work, if_neg (by decide), if_pos ⟨rfl, hkind⟩, if_pos rfl]

/-- What a card that was reset does not know. -/
theorem react_unknown {cmd : UInt8} {n : Nat} (hw : c.waking = some n) (h0 : cmd ≠ CMD0)
    (h8 : cmd = CMD8 → c.kind = .v1 ∨ c.kind = .mmc) (h55 : cmd = CMD55 → c.kind = .mmc)
    (hbegins : ¬ c.Begins cmd) (arg : Nat) :
    c.react cmd arg = ⟨0x05, [], .idle, false, some n⟩ := by
  have h8' : ¬ (cmd = CMD8 ∧ (c.kind = .v2 ∨ c.kind = .v2hc)) := by
    rintro ⟨rfl, hkind⟩
    rcases h8 rfl with h | h <;> rw [h] at hkind <;> revert hkind <;> decide
  rw [react, hw]
  dsimp only
  rw [rouse, if_neg h0, if_neg h8', if_neg fun h ↦ h.2 (h55 h.1), if_neg hbegins]

theorem react_cmd8 {n : Nat} (hw : c.waking = some n) (hkind : c.kind = .v2 ∨ c.kind = .v2hc) :
    c.react CMD8 0x1AA = ⟨0x01, [0, 0, 0x01, 0xAA], .idle, false, some n⟩ := by
  rw [react, hw]
  dsimp only
  rw [rouse, if_neg (by decide), if_pos ⟨rfl, hkind⟩]
  rfl

theorem react_cmd16 (hw : c.waking = none) :
    c.react CMD16 512 = ⟨0, [], .idle, false, none⟩ := by
  have h : ¬ c.Begins CMD16 := by
    rintro (⟨h, -⟩ | ⟨h, -⟩) <;> exact absurd h (by decide)
  rw [react_awake hw, work, if_neg (by decide), if_neg fun h ↦ absurd h.1 (by decide),
    if_neg fun h ↦ absurd h.1 (by decide), if_neg (by decide), if_neg (by decide), if_neg h,
    if_pos rfl, if_pos rfl]

theorem react_cmd58 (hw : c.waking = none) (arg : Nat) :
    c.react CMD58 arg = ⟨0, c.ocr, .idle, false, none⟩ := by
  have h : ¬ c.Begins CMD58 := by
    rintro (⟨h, -⟩ | ⟨h, -⟩) <;> exact absurd h (by decide)
  rw [react_awake hw, work, if_neg (by decide), if_neg fun h ↦ absurd h.1 (by decide),
    if_neg fun h ↦ absurd h.1 (by decide), if_neg (by decide), if_neg (by decide), if_neg h,
    if_neg (by decide), if_pos rfl]

theorem number_cmd0 : Number CMD0 := ⟨by decide, by decide⟩
theorem number_cmd1 : Number CMD1 := ⟨by decide, by decide⟩
theorem number_cmd8 : Number CMD8 := ⟨by decide, by decide⟩
theorem number_cmd16 : Number CMD16 := ⟨by decide, by decide⟩
theorem number_cmd41 : Number CMD41 := ⟨by decide, by decide⟩
theorem number_cmd58 : Number CMD58 := ⟨by decide, by decide⟩

/-! ## The commands of `SD_Initialize` -/

/-- A command whose reaction is known. -/
theorem run_request {cmd : UInt8} (hcmd : Number cmd) (arg : UInt32) (crc : UInt8)
    {r1 : UInt8} {body : List UInt8} {app' : Bool} {w' : Option Nat}
    (hreact : ∀ c₁ : Card, c₁.kind = c.kind → c₁.waking = w → c₁.app = app →
      c₁.react cmd arg.toNat = ⟨r1, body, .idle, app', w'⟩)
    (h : Between c cell w app [] c') :
    Run (sdSendCmd cmd arg crc) (⟨m, c', v⟩ : Mcu Card SdVars) fun r t ↦
      r = r1 ∧ ∃ c'', Between c cell w' app' body c'' ∧ t = ⟨m, c'', v⟩ := by
  have hmode : ∀ multi a, c'.mode ≠ .writing multi a := fun _ _ ha ↦
    Mode.noConfusion (h.mode.symm.trans ha)
  refine (run_sdSendCmd_card hcmd arg crc (.inr (.inr h.out)) hmode).mono ?_
  rintro r _ ⟨c₁, hs, rfl, rfl⟩
  rw [hreact c₁ (hs.kind.trans h.kind) (hs.waking.trans h.waking) (hs.app.trans h.app),
    reacted_eq_enter (.inr fun _ ↦ Mode.noConfusion)]
  refine ⟨rfl, _, ?_, rfl⟩
  exact ⟨hs.kind.trans h.kind, hs.sectors.trans h.sectors, hs.cell.trans h.cell, rfl, rfl, rfl,
    ⟨rfl, rfl⟩, rfl⟩

/-- The four bytes after a reply. -/
theorem run_readFour {b₀ b₁ b₂ b₃ : UInt8} (h : Between c cell w app [b₀, b₁, b₂, b₃] c') :
    Run readFour (⟨m, c', v⟩ : Mcu Card SdVars) fun r t ↦
      r = (b₀, b₁, b₂, b₃) ∧ ∃ c'', Between c cell w app [] c'' ∧ t = ⟨m, c'', v⟩ := by
  have hstill : c'.Still := fun a ha ↦ Mode.noConfusion (h.mode.symm.trans ha)
  have hbyte (b : UInt8) (bs : List UInt8) : SpiDevice.exchange 0xFF { c' with out := b :: bs } =
      (b, { c' with out := bs }) := by
    have hx := exchange_cons (c := { c' with out := b :: bs })
      ⟨h.attentive.selected, h.attentive.rx⟩ rfl
    rw [hx, queue_out, queue_of_still hstill]
  have hout : c' = { c' with out := [b₀, b₁, b₂, b₃] } := by
    rw [← h.out]
  rw [readFour, hout]
  simp only [run_bind, run_of_eq (readWriteByte_apply _ _), hbyte, run_pure]
  refine ⟨trivial, _, ?_, rfl⟩
  exact ⟨h.kind, h.sectors, h.cell, h.mode, h.waking, h.app,
    ⟨h.attentive.selected, h.attentive.rx⟩, rfl⟩

/-- One request to begin, by a program that makes it. -/
def Asks (c : Card) (cell : Nat → UInt8) (p : Prog (Mcu Card SdVars) UInt8) : Prop :=
  ∀ w m c' v, Between c cell w false [] c' → Run p ⟨m, c', v⟩ fun r t ↦
    r = stirring w ∧ ∃ c'', Between c cell (later w) false [] c'' ∧ t = ⟨m, c'', v⟩

/-- The card begins before the driver gives up. -/
theorem run_retrying {p : Prog (Mcu Card SdVars) UInt8} (hp : Asks c cell p) {retry : UInt16}
    (hleft : left w < retry.toNat) (h : Between c cell w false [] c') :
    Run (retrying p 0 retry) (⟨m, c', v⟩ : Mcu Card SdVars) fun r t ↦
      r.1 = 0 ∧ r.2 ≠ 0 ∧ ∃ c'', Between c cell none false [] c'' ∧ t = ⟨m, c'', v⟩ := by
  have hpoll (k : Nat) (w : Option Nat) (hk : left w < k) (c' : Card)
      (h : Between c cell w false [] c') :
      Run (poll p (fun r1 ↦ r1 == 0) k) (⟨m, c', v⟩ : Mcu Card SdVars) fun r t ↦
        r.1 = 0 ∧ 0 < r.2 ∧ r.2 ≤ k ∧
          ∃ c'', Between c cell none false [] c'' ∧ t = ⟨m, c'', v⟩ := by
    induction k generalizing w c' with
    | zero => exact absurd hk (Nat.not_lt_zero _)
    | succ k ih =>
        refine (hp w m c' v h).bind ?_
        rintro r _ ⟨rfl, c₁, h₁, rfl⟩
        by_cases h0 : left w = 0
        · have hzero : stirring w = 0 := if_pos h0
          rw [later_of_left h0] at h₁
          rw [hzero, if_pos (by decide), run_pure]
          exact ⟨rfl, k.succ_pos, le_rfl, c₁, h₁, rfl⟩
        · have hone : stirring w = 1 := if_neg h0
          have hlt : left (later w) < k := by
            rw [left_later]
            omega
          rw [hone, if_neg (by decide)]
          refine (ih (later w) hlt c₁ h₁).mono ?_
          rintro r t ⟨hr, hpos, hle, ht⟩
          exact ⟨hr, hpos, Nat.le_succ_of_le hle, ht⟩
  refine (hpoll retry.toNat w hleft c' h).bind ?_
  rintro ⟨r, k⟩ t ⟨hr, hpos, hle, ht⟩
  dsimp only at hr hpos hle ⊢
  have hk : (UInt16.ofNat k).toNat = k :=
    UInt16.toNat_ofNat_of_lt' (lt_of_le_of_lt hle retry.toNat_lt)
  refine run_pure.2 ⟨hr, ?_, ht⟩
  rw [if_pos hr]
  intro (h0 : UInt16.ofNat k = 0)
  rw [h0] at hk
  exact hpos.ne hk

theorem asks_acmd41 (hkind : c.kind ≠ .mmc) (arg : UInt32) :
    Asks c cell (sdSendAcmd41 arg) := by
  intro w m c' v h
  refine (run_request number_cmd55 0 0x01 (fun c₁ hk hw _ ↦
    react_cmd55 hw (hk ▸ hkind) _) h).bind ?_
  rintro _ _ ⟨-, c₁, h₁, rfl⟩
  exact run_request number_cmd41 arg 0x01 (fun c₂ _ hw happ ↦
    react_begins hw (.inl ⟨rfl, happ⟩) _) h₁

theorem asks_cmd1 (hkind : c.kind = .mmc) : Asks c cell (sdSendCmd CMD1 0 0x01) := by
  intro w m c' v h
  exact run_request number_cmd1 0 0x01 (fun c₁ hk hw _ ↦
    react_begins hw (.inr ⟨rfl, hk.trans hkind⟩) _) h

/-! ## The branches -/

/-- What a branch of `SD_Initialize` leaves behind. -/
def Known (c : Card) (cell m : Nat → UInt8) (v : SdVars) (t : Mcu Card SdVars) : Prop :=
  ∃ c', Between c cell none false [] c' ∧ t = ⟨m, c', { v with sdType := c.kind.sdType }⟩

theorem run_sdInitV2 {n : Nat} (hn : n < 0xFFFE) (hkind : c.kind = .v2 ∨ c.kind = .v2hc)
    (h : Between c cell (some n) false [0, 0, 0x01, 0xAA] c') :
    Run sdInitV2 (⟨m, c', v⟩ : Mcu Card SdVars) fun _ t ↦ Known c cell m v t := by
  have hmmc : c.kind ≠ .mmc := by
    rcases hkind with h | h <;> rw [h] <;> decide
  refine (run_readFour h).bind ?_
  rintro _ _ ⟨rfl, c₁, h₁, rfl⟩
  rw [if_pos ⟨rfl, rfl⟩]
  have hlt : left (some n) < (0xFFFE : UInt16).toNat := hn
  refine (run_retrying (asks_acmd41 hmmc 0x40000000) hlt h₁).bind ?_
  rintro r _ ⟨-, hr, c₂, h₂, rfl⟩
  rw [if_neg hr]
  have h58 (c₃ : Card) (hk : c₃.kind = c.kind) (hw : c₃.waking = none) (_ : c₃.app = false) :
      c₃.react CMD58 (0 : UInt32).toNat =
        ⟨0, [if c.kind = .v2hc then 0xC0 else 0x80, 0xFF, 0x80, 0x00], .idle, false, none⟩ := by
    rw [react_cmd58 hw, ocr, hk]
  refine (run_request number_cmd58 0 0x01 h58 h₂).bind ?_
  rintro _ _ ⟨rfl, c₃, h₃, rfl⟩
  rw [if_pos rfl]
  refine (run_readFour h₃).bind ?_
  rintro _ _ ⟨rfl, c₄, h₄, rfl⟩
  refine run_bind.2 ((run_of_eq (assign_apply _ _)).2 (run_pure.2 ⟨c₄, h₄, ?_⟩))
  rcases hkind with hk | hk <;> rw [hk] <;> rfl

theorem run_sdInitV1 {n : Nat} (hn : n < 0xFFFE) (hkind : c.kind = .v1 ∨ c.kind = .mmc)
    (h : Between c cell (some n) false [] c') :
    Run sdInitV1 (⟨m, c', v⟩ : Mcu Card SdVars) fun _ t ↦ Known c cell m v t := by
  -- After the requests `CMD16` is answered with 0, so the type stays.
  have hend (v : SdVars) (r : UInt8 × UInt16) (hr : r.2 ≠ 0) (c₂ : Card)
      (h₂ : Between c cell none false [] c₂) (hv : v.sdType = c.kind.sdType) :
      Run (if r.2 = 0 then do
          setSdType SD_TYPE_ERR
          pure r.1
        else do
          let r16 ← sdSendCmd CMD16 512 0x01
          when (r16 != 0) (setSdType SD_TYPE_ERR)
          pure r.1) (⟨m, c₂, v⟩ : Mcu Card SdVars) fun _ t ↦ Known c cell m v t := by
    rw [if_neg hr]
    refine (run_request number_cmd16 512 0x01 (fun c₃ _ hw _ ↦ react_cmd16 hw) h₂).bind ?_
    rintro _ _ ⟨rfl, c₃, h₃, rfl⟩
    refine run_bind.2 (run_pure.2 (run_pure.2 ⟨c₃, h₃, ?_⟩))
    rw [← hv]
  rcases hkind with hk | hk
  · have hmmc : c.kind ≠ .mmc := by
      rw [hk]
      decide
    refine (asks_acmd41 hmmc 0 (some n) m c' v h).bind ?_
    rintro _ _ ⟨rfl, c₁, h₁, rfl⟩
    have hle : stirring (some n) ≤ 1 := by
      rw [stirring]
      split <;> decide
    have hlt : left (later (some n)) < (0xFFFE : UInt16).toNat := by
      rw [left_later]
      exact lt_of_le_of_lt (Nat.sub_le _ _) hn
    rw [if_pos hle, bind_assoc', run_bind, setSdType, run_of_eq (assign_apply _ _)]
    refine (run_retrying (asks_acmd41 hmmc 0) hlt h₁).bind ?_
    rintro r _ ⟨-, hr, c₂, h₂, rfl⟩
    refine hend _ r hr c₂ h₂ ?_
    rw [hk]
    rfl
  · have hbegins (c₁ : Card) {cmd : UInt8} (hcmd : cmd ≠ CMD1) (happ : c₁.app = false) :
        ¬ c₁.Begins cmd := by
      rintro (⟨-, h⟩ | ⟨h, -⟩)
      · exact Bool.false_ne_true (happ.symm.trans h)
      · exact hcmd h
    have h41 : Run (sdSendAcmd41 0) (⟨m, c', v⟩ : Mcu Card SdVars) fun r t ↦
        r = 0x05 ∧ ∃ c'', Between c cell (some n) false [] c'' ∧ t = ⟨m, c'', v⟩ := by
      refine (run_request number_cmd55 0 0x01 (fun c₁ hk₁ hw happ ↦ react_unknown hw (by decide)
        (fun h ↦ absurd h (by decide)) (fun _ ↦ hk₁.trans hk) (hbegins c₁ (by decide) happ) _)
        h).bind ?_
      rintro _ _ ⟨-, c₁, h₁, rfl⟩
      exact run_request number_cmd41 0 0x01 (fun c₁ _ hw happ ↦ react_unknown hw (by decide)
        (fun h ↦ absurd h (by decide)) (fun h ↦ absurd h (by decide))
        (hbegins c₁ (by decide) happ) _) h₁
    refine h41.bind ?_
    rintro _ _ ⟨rfl, c₁, h₁, rfl⟩
    rw [if_neg (by decide), bind_assoc', run_bind, setSdType, run_of_eq (assign_apply _ _)]
    have hlt : left (some n) < (0xFFFE : UInt16).toNat := hn
    refine (run_retrying (asks_cmd1 hk) hlt h₁).bind ?_
    rintro r _ ⟨-, hr, c₂, h₂, rfl⟩
    refine hend _ r hr c₂ h₂ ?_
    rw [hk]
    rfl

/-! ## `disk_initialize` -/

/-- The card may be initialized: it is not in a transfer, and will not be busy for long. -/
structure Present (c : Card) : Prop where
  mode : c.mode = .idle
  busy : ∃ n < 0xFFFFFF, c.out = List.replicate n 0x00

theorem Rest.present (h : Rest c cell c') : Present c' := ⟨h.mode, h.busy⟩

/-- `CMD0` is answered at once. -/
theorem run_reset (h : Present c) : Run (retrying (sdSendCmd CMD0 0 0x95) 0x01 20)
    (⟨m, c, v⟩ : Mcu Card SdVars) fun r t ↦ r.1 = 0x01 ∧
      ∃ n < 0xFFFE, ∃ c', Between c c.cell (some n) false [] c' ∧ t = ⟨m, c', v⟩ := by
  have hstill : c.Still := fun _ ha ↦ Mode.noConfusion (h.mode.symm.trans ha)
  have hmode : ∀ multi a, c.mode ≠ .writing multi a := fun _ _ ha ↦
    Mode.noConfusion (h.mode.symm.trans ha)
  have hrounds : (20 : UInt16).toNat = 19 + 1 := rfl
  rw [retrying, hrounds, poll, bind_assoc']
  refine (run_sdSendCmd_card number_cmd0 0 0x95 (.inl ⟨hstill, h.busy⟩) hmode).bind ?_
  rintro r _ ⟨c₁, hs, rfl, rfl⟩
  have hdone : (c₁.reset.r1 == 0x01) = true := rfl
  rw [react_cmd0, reacted_eq_enter (.inr fun _ ↦ Mode.noConfusion), if_pos hdone]
  refine run_pure.2 ⟨rfl, _, (c₁.timing.wake c₁.tick).isLt, c₁.enter c₁.reset, ?_, rfl⟩
  exact ⟨hs.kind, hs.sectors, hs.cell, rfl, rfl, rfl, ⟨rfl, rfl⟩, rfl⟩

theorem Between.deselect (h : Between c cell none app [] c') :
    Rest c cell { c' with selected := false, rx := [] } :=
  ⟨h.kind, h.sectors, h.cell, h.mode, h.waking, 0, by decide, h.out⟩

theorem sdType_ne_zero (kind : CardKind) : kind.sdType ≠ 0 := by
  cases kind <;> decide

/-- **`SD_Initialize`** of a conforming card. -/
theorem run_sdInitialize (h : Present c) : Run sdInitialize (⟨m, c, v⟩ : Mcu Card SdVars) fun r t ↦
    r = 0 ∧ t.mem = m ∧ t.glob.sdType = c.kind.sdType ∧ Rest c c.cell t.dev := by
  let u : Card := { c with selected := false, rx := [] }
  let low : SdVars := { v with prescaler := SPI_BaudRatePrescaler_256 }
  have hidle : SpiDevice.exchange 0xFF u = (0xFF, u) := exchange_of_not_selected rfl 0xFF
  have hspi : sdSpiInit (⟨m, c, v⟩ : Mcu Card SdVars) = some ((), ⟨m, u, low⟩) := by
    rw [sdSpiInit, bind_of_eq (chipSelect_apply _ _), sdSpiSpeedLow, bind_of_eq (assign_apply _ _),
      bind_of_eq (readWriteByte_apply _ _), chipSelect_apply]
    exact congrArg (fun x ↦ some ((), (⟨m, SpiDevice.cs true x.2, low⟩ : Mcu Card SdVars))) hidle
  have hbytes : forRange 10 (fun _ ↦ do let _ ← readWriteByte 0xFF)
    (⟨m, u, low⟩ : Mcu Card SdVars) =
      some ((), ⟨m, u, low⟩) := by
    have hstay : ∀ (i : Nat) (t : Mcu Card SdVars), i < 10 → t = ⟨m, u, low⟩ →
        Run (do let _ ← readWriteByte 0xFF) t fun _ t' ↦ t' = ⟨m, u, low⟩ := by
      rintro _ _ - rfl
      rw [run_bind, run_of_eq (readWriteByte_apply _ _), run_pure, hidle]
    exact (run_forRange (fun _ (t : Mcu Card SdVars) ↦ t = ⟨m, u, low⟩) hstay rfl).eq
  rw [sdInitialize, initializeBy, run_bind, run_of_eq hspi, run_bind, sdSpiSpeedLow,
    run_of_eq (assign_apply _ _), run_bind, run_of_eq hbytes]
  have hu : Present u := ⟨h.mode, h.busy⟩
  refine (run_reset hu).bind ?_
  rintro ⟨r, retry⟩ _ ⟨rfl, n, hn, c₁, h₁, rfl⟩
  rw [run_bind, setSdType, run_of_eq (assign_apply _ _), if_pos rfl, bind_assoc']
  -- Only a card of version 2 knows `CMD8`.
  have hbranch : Run (do
      let r8 ← sdSendCmd CMD8 0x1AA 0x87
      if r8 = 1 then sdInitV2 else sdInitV1) (⟨m, c₁, { low with sdType := 0 }⟩ : Mcu Card SdVars)
      fun _ t ↦ Known u u.cell m low t := by
    by_cases hkind : u.kind = .v2 ∨ u.kind = .v2hc
    · refine (run_request number_cmd8 0x1AA 0x87 (fun c₂ hk hw _ ↦
        react_cmd8 hw (hk ▸ hkind)) h₁).bind ?_
      rintro _ _ ⟨rfl, c₂, h₂, rfl⟩
      rw [if_pos rfl]
      exact run_sdInitV2 hn hkind h₂
    · have hold : u.kind = .v1 ∨ u.kind = .mmc := by
        revert hkind
        cases u.kind <;> decide
      have hunknown (c₂ : Card) (hk : c₂.kind = u.kind) (hw : c₂.waking = some n)
          (happ : c₂.app = false) : c₂.react CMD8 (0x1AA : UInt32).toNat =
            ⟨0x05, [], .idle, false, some n⟩ := by
        refine react_unknown hw (by decide) (fun _ ↦ hk ▸ hold) (fun h ↦ absurd h (by decide)) ?_ _
        rintro (⟨h, -⟩ | ⟨h, -⟩) <;> exact absurd h (by decide)
      refine (run_request number_cmd8 0x1AA 0x87 hunknown h₁).bind ?_
      rintro _ _ ⟨rfl, c₂, h₂, rfl⟩
      rw [if_neg (by decide)]
      exact run_sdInitV1 hn hold h₂
  rw [← bind_assoc']
  refine hbranch.bind ?_
  rintro r1 _ ⟨c₂, h₂, rfl⟩
  rw [run_bind, run_of_eq sdDisSelect_card, run_bind, sdSpiSpeedHigh, run_of_eq (assign_apply _ _),
    run_bind, run_of_eq (get_apply _ _), run_pure]
  refine ⟨if_pos (sdType_ne_zero c.kind), rfl, rfl, ?_⟩
  have hrest := h₂.deselect
  exact ⟨hrest.kind, hrest.sectors, hrest.cell, hrest.mode, hrest.awake, hrest.busy⟩

/-- **`disk_initialize`** of the drive with the card succeeds. -/
theorem run_diskInitialize_card (h : Present c) :
    Run (diskInitialize SD_CARD) (⟨m, c, v⟩ : Mcu Card SdVars) fun r t ↦
      r = 0 ∧ t.mem = m ∧ t.glob.sdType = c.kind.sdType ∧ Rest c c.cell t.dev := by
  rw [diskInitialize, if_pos rfl, bind_assoc']
  refine (run_sdInitialize h).bind ?_
  rintro _ t ⟨rfl, hm, htype, hrest⟩
  exact run_pure.2 ⟨rfl, hm, htype, hrest⟩

end Stm32F1.Sd
