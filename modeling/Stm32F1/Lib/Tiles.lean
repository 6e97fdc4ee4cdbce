import Mathlib

/-!
# A range cut into tiles

A range of numbers is cut, without gap or overlap, into tiles.  A tile is in use, in
some way, or free.  The file has what an allocator needs of it: tiles are exchanged
for others that cover the same numbers, distinct tiles lie apart, and a range with no
two free tiles beside each other that is all free is one tile.
-/

namespace Stm32F1

/-- The numbers from `start` on, `size` of them; free if there is no use. -/
structure Tile (τ : Type) where
  start : Nat
  size : Nat
  use : Option τ

variable {τ : Type}

namespace Tile

/-- The first number behind the tile. -/
def stop (t : Tile τ) : Nat := t.start + t.size

end Tile

/-- The tiles cover the numbers from `a` up to `b`, in order. -/
def Tiled : Nat → List (Tile τ) → Nat → Prop
  | a, [], b => a = b
  | a, t :: ts, b => t.start = a ∧ 0 < t.size ∧ Tiled t.stop ts b

variable {a b c x : Nat} {t u : Tile τ} {ts us xs ys mid mid' : List (Tile τ)}

@[simp] theorem tiled_nil : Tiled a ([] : List (Tile τ)) b ↔ a = b := Iff.rfl

@[simp] theorem tiled_cons :
    Tiled a (t :: ts) b ↔ t.start = a ∧ 0 < t.size ∧ Tiled t.stop ts b := Iff.rfl

theorem tiled_append : Tiled a (xs ++ ys) b ↔ ∃ c, Tiled a xs c ∧ Tiled c ys b := by
  induction xs generalizing a with
  | nil => simp
  | cons t xs ih =>
      rw [List.cons_append, tiled_cons, ih]
      simp only [tiled_cons, and_assoc, exists_and_left]

/-- Tiles exchanged for others that cover the same numbers. -/
theorem Tiled.exchange (h : Tiled a (xs ++ mid ++ ys) b)
    (hmid : ∀ c d, Tiled c mid d → Tiled c mid' d) : Tiled a (xs ++ mid' ++ ys) b := by
  obtain ⟨d, hleft, hys⟩ := tiled_append.1 h
  obtain ⟨c, hxs, hc⟩ := tiled_append.1 hleft
  exact tiled_append.2 ⟨d, tiled_append.2 ⟨c, hxs, hmid c d hc⟩, hys⟩

theorem Tiled.le (h : Tiled a ts b) : a ≤ b := by
  induction ts generalizing a with
  | nil => exact le_of_eq h
  | cons t ts ih =>
      obtain ⟨rfl, -, hts⟩ := h
      exact (Nat.le_add_right _ _).trans (ih hts)

theorem Tiled.le_start (h : Tiled a ts b) (ht : t ∈ ts) : a ≤ t.start := by
  induction ts generalizing a with
  | nil => exact absurd ht List.not_mem_nil
  | cons u ts ih =>
      obtain ⟨rfl, -, hts⟩ := h
      rcases List.mem_cons.1 ht with rfl | ht
      · exact le_rfl
      · exact (Nat.le_add_right _ _).trans (ih hts ht)

theorem Tiled.stop_le (h : Tiled a ts b) (ht : t ∈ ts) : t.stop ≤ b := by
  induction ts generalizing a with
  | nil => exact absurd ht List.not_mem_nil
  | cons u ts ih =>
      obtain ⟨-, -, hts⟩ := h
      rcases List.mem_cons.1 ht with rfl | ht
      · exact hts.le
      · exact ih hts ht

theorem Tiled.size_pos (h : Tiled a ts b) (ht : t ∈ ts) : 0 < t.size := by
  induction ts generalizing a with
  | nil => exact absurd ht List.not_mem_nil
  | cons u ts ih =>
      obtain ⟨-, hpos, hts⟩ := h
      rcases List.mem_cons.1 ht with rfl | ht
      · exact hpos
      · exact ih hts ht

/-- Every tile ends before the next ones begin. -/
theorem Tiled.pairwise (h : Tiled a ts b) : ts.Pairwise fun t u ↦ t.stop ≤ u.start := by
  induction ts generalizing a with
  | nil => exact List.Pairwise.nil
  | cons t ts ih =>
      obtain ⟨-, -, hts⟩ := h
      exact List.pairwise_cons.2 ⟨fun u hu ↦ hts.le_start hu, ih hts⟩

/-- **Tiles that share a number are one.** -/
theorem Tiled.eq_of_mem (h : Tiled a ts b) (ht : t ∈ ts) (hu : u ∈ ts)
    (htx : t.start ≤ x ∧ x < t.stop) (hux : u.start ≤ x ∧ x < u.stop) : t = u := by
  induction ts generalizing a with
  | nil => exact absurd ht List.not_mem_nil
  | cons s ts ih =>
      obtain ⟨-, -, hts⟩ := h
      rcases List.mem_cons.1 ht with rfl | ht'
      · rcases List.mem_cons.1 hu with rfl | hu'
        · rfl
        · have hle := hts.le_start hu'
          omega
      · rcases List.mem_cons.1 hu with rfl | hu'
        · have hle := hts.le_start ht'
          omega
        · exact ih hts ht' hu'

theorem Tiled.start_inj (h : Tiled a ts b) (ht : t ∈ ts) (hu : u ∈ ts) (heq : t.start = u.start) :
    t = u := by
  have htpos := h.size_pos ht
  have hupos := h.size_pos hu
  refine h.eq_of_mem (x := t.start) ht hu ⟨le_rfl, ?_⟩ ⟨heq.ge, ?_⟩
  · unfold Tile.stop
    omega
  · unfold Tile.stop
    omega

/-- The tiles before one end where it begins, and those behind it begin where it ends. -/
theorem Tiled.split (h : Tiled a (xs ++ t :: ys) b) :
    Tiled a xs t.start ∧ 0 < t.size ∧ Tiled t.stop ys b := by
  obtain ⟨c, hxs, rfl, hpos, hys⟩ := tiled_append.1 h
  exact ⟨hxs, hpos, hys⟩

/-! ## Sums -/

/-- How many numbers are in tiles of a kind. -/
def extent (p : Tile τ → Bool) (ts : List (Tile τ)) : Nat :=
  ((ts.filter p).map Tile.size).sum

variable {p : Tile τ → Bool}

@[simp] theorem extent_nil : extent p ([] : List (Tile τ)) = 0 := rfl

theorem extent_cons : extent p (t :: ts) = (if p t then t.size else 0) + extent p ts := by
  unfold extent
  cases h : p t with
  | true => simp [h]
  | false => simp [h]

@[simp] theorem extent_append : extent p (xs ++ ys) = extent p xs + extent p ys := by
  simp [extent]

theorem Tiled.extent_le (h : Tiled a ts b) : a + extent p ts ≤ b := by
  induction ts generalizing a with
  | nil => exact le_of_eq h
  | cons t ts ih =>
      obtain ⟨rfl, -, hts⟩ := h
      have hle := ih hts
      rw [extent_cons]
      unfold Tile.stop at hle
      split <;> omega

theorem size_le_extent (ht : t ∈ ts) (hp : p t) : t.size ≤ extent p ts := by
  obtain ⟨xs, ys, rfl⟩ := List.append_of_mem ht
  rw [extent_append, extent_cons, if_pos hp]
  omega

/-- A number is in a tile of the kind or in one that is not. -/
theorem Tiled.extent_add_not (h : Tiled a ts b) :
    a + (extent p ts + extent (fun t ↦ !p t) ts) = b := by
  induction ts generalizing a with
  | nil => exact h
  | cons t ts ih =>
      obtain ⟨rfl, -, hts⟩ := h
      have hrest := ih hts
      rw [extent_cons, extent_cons]
      unfold Tile.stop at hrest
      cases p t <;> simp <;> omega

/-! ## Free tiles -/

/-- No two free tiles are beside each other. -/
def Merged (ts : List (Tile τ)) : Prop :=
  ts.IsChain fun t u ↦ t.use.isSome ∨ u.use.isSome

/-- Every number of the range is in a tile. -/
theorem Tiled.exists_tile (h : Tiled a ts b) (hlo : a ≤ x) (hhi : x < b) :
    ∃ xs t ys, ts = xs ++ t :: ys ∧ t.start ≤ x ∧ x < t.stop := by
  induction ts generalizing a with
  | nil =>
      rw [tiled_nil] at h
      omega
  | cons t ts ih =>
      obtain ⟨rfl, -, hts⟩ := h
      by_cases hx : x < t.stop
      · exact ⟨[], t, ts, rfl, hlo, hx⟩
      · obtain ⟨xs, u, ys, rfl, hu⟩ := ih hts (not_lt.1 hx)
        exact ⟨t :: xs, u, ys, rfl, hu⟩

/-- **A gap between the tiles in use lies in one free tile.** -/
theorem Merged.exists_free (h : Merged ts) (htiled : Tiled a ts b) {y : Nat} (hlo : a ≤ x)
    (hxy : x < y) (hhi : y ≤ b)
    (hgap : ∀ t ∈ ts, t.use.isSome → y ≤ t.start ∨ t.stop ≤ x) :
    ∃ t ∈ ts, t.use = none ∧ t.start ≤ x ∧ y ≤ t.stop := by
  obtain ⟨xs, t, ys, rfl, htx, hxt⟩ := htiled.exists_tile hlo (hxy.trans_le hhi)
  have hmem : t ∈ xs ++ t :: ys := List.mem_append_right _ List.mem_cons_self
  have hfree : t.use = none := by
    by_contra hused
    have hor := hgap t hmem (Option.isSome_iff_ne_none.2 hused)
    omega
  refine ⟨t, hmem, hfree, htx, ?_⟩
  by_contra hshort
  -- the tile behind it is in use, and begins in the gap
  have hys := htiled.split.2.2
  cases ys with
  | nil =>
      rw [tiled_nil] at hys
      omega
  | cons u ys =>
      have hor := (List.isChain_cons.1 (List.isChain_append.1 h).2.1).1 u rfl
      rw [hfree] at hor
      have hgapu := hgap u (by simp) (hor.resolve_left (by simp))
      have hustart := hys.1
      have hpos := hys.2.1
      unfold Tile.stop at *
      omega

/-- The last tile is not free. -/
def UsedLast (ts : List (Tile τ)) : Prop := ∀ t ∈ ts.getLast?, t.use.isSome

/-- The first tile is not free. -/
def UsedHead (ts : List (Tile τ)) : Prop := ∀ t ∈ ts.head?, t.use.isSome

variable {s v : Tile τ}

theorem usedLast_or (ts : List (Tile τ)) :
    UsedLast ts ∨ ∃ us, ∃ t : Tile τ, ts = us ++ [t] ∧ t.use = none := by
  rcases List.eq_nil_or_concat ts with rfl | ⟨us, t, rfl⟩
  · exact .inl fun t ht ↦ nomatch ht
  · cases huse : t.use with
    | none => exact .inr ⟨us, t, by rw [List.concat_eq_append], huse⟩
    | some use =>
        refine .inl fun u hu ↦ ?_
        rw [List.concat_eq_append, List.getLast?_concat] at hu
        obtain rfl := Option.some.inj hu
        rw [huse]
        rfl

theorem usedHead_or (ts : List (Tile τ)) :
    UsedHead ts ∨ ∃ t : Tile τ, ∃ us, ts = t :: us ∧ t.use = none := by
  cases ts with
  | nil => exact .inl fun t ht ↦ nomatch ht
  | cons t ts =>
      cases huse : t.use with
      | none => exact .inr ⟨t, ts, rfl, huse⟩
      | some use =>
          refine .inl fun u hu ↦ ?_
          obtain rfl := Option.some.inj hu
          rw [huse]
          rfl

/-- A tile between others is freed: it becomes one with the free tiles beside it. -/
inductive Vacated : List (Tile τ) → Tile τ → List (Tile τ) → List (Tile τ) → Prop
  | alone {xs : List (Tile τ)} {t : Tile τ} {ys : List (Tile τ)} : UsedLast xs → UsedHead ys →
      Vacated xs t ys (xs ++ ⟨t.start, t.size, none⟩ :: ys)
  | before {xs : List (Tile τ)} {s t : Tile τ} {ys : List (Tile τ)} : s.use = none → UsedHead ys →
      Vacated (xs ++ [s]) t ys (xs ++ ⟨s.start, s.size + t.size, none⟩ :: ys)
  | behind {xs : List (Tile τ)} {t u : Tile τ} {ys : List (Tile τ)} : UsedLast xs → u.use = none →
      Vacated xs t (u :: ys) (xs ++ ⟨t.start, t.size + u.size, none⟩ :: ys)
  | between {xs : List (Tile τ)} {s t u : Tile τ} {ys : List (Tile τ)} : s.use = none →
      u.use = none →
      Vacated (xs ++ [s]) t (u :: ys) (xs ++ ⟨s.start, s.size + t.size + u.size, none⟩ :: ys)

/-- Two tiles that become one cover the same numbers. -/
theorem Tiled.join {use : Option τ} (h : Tiled a [t, u] b) :
    Tiled a [⟨t.start, t.size + u.size, use⟩] b := by
  obtain ⟨rfl, hpos, hu, -, rfl⟩ := h
  refine ⟨rfl, Nat.add_pos_left hpos _, ?_⟩
  show t.start + (t.size + u.size) = u.start + u.size
  rw [hu, Tile.stop, Nat.add_assoc]

theorem Tiled.join_three {use : Option τ} (h : Tiled a [s, t, u] b) :
    Tiled a [⟨s.start, s.size + t.size + u.size, use⟩] b := by
  obtain ⟨c, hst, hu⟩ := tiled_append.1 (show Tiled a ([s, t] ++ [u]) b from h)
  have hjoin : Tiled a [⟨s.start, s.size + t.size, use⟩] c := hst.join
  exact Tiled.join (tiled_append.2 ⟨c, hjoin, hu⟩)

theorem merged_append : Merged (xs ++ ys) ↔ Merged xs ∧ Merged ys ∧
    ∀ t ∈ xs.getLast?, ∀ u ∈ ys.head?, t.use.isSome ∨ u.use.isSome :=
  List.isChain_append

/-- A free tile keeps a list merged where its neighbours are in use. -/
theorem Merged.insert (hxs : Merged xs) (hys : Merged ys) (hlast : UsedLast xs)
    (hhead : UsedHead ys) : Merged (xs ++ t :: ys) := by
  refine merged_append.2 ⟨hxs, ?_, fun s hs u _ ↦ .inl (hlast s hs)⟩
  exact List.isChain_cons.2 ⟨fun u hu ↦ .inr (hhead u hu), hys⟩

/-- A tile in use may stand anywhere. -/
theorem Merged.used (hxs : Merged xs) (hys : Merged ys) (ht : t.use.isSome) :
    Merged (xs ++ t :: ys) :=
  merged_append.2 ⟨hxs, List.isChain_cons.2 ⟨fun _ _ ↦ .inl ht, hys⟩, fun _ _ u hu ↦ by
    obtain rfl := Option.some.inj hu
    exact .inr ht⟩

theorem Merged.usedLast (h : Merged (xs ++ [s])) (hs : s.use = none) : UsedLast xs := by
  intro t ht
  have hor := (merged_append.1 h).2.2 t ht s rfl
  rw [hs] at hor
  exact hor.resolve_right (by simp)

theorem Merged.usedHead (h : Merged (u :: ys)) (hu : u.use = none) : UsedHead ys := by
  intro t ht
  have hor := (List.isChain_cons.1 h).1 t ht
  rw [hu] at hor
  exact hor.resolve_left (by simp)

theorem Vacated.merged (h : Vacated xs t ys us) (hxs : Merged xs) (hys : Merged ys) :
    Merged us := by
  cases h with
  | alone hlast hhead => exact hxs.insert hys hlast hhead
  | before hs hhead => exact (merged_append.1 hxs).1.insert hys (hxs.usedLast hs) hhead
  | behind hlast hu => exact hxs.insert (List.isChain_cons.1 hys).2 hlast (hys.usedHead hu)
  | between hs hu =>
      exact (merged_append.1 hxs).1.insert (List.isChain_cons.1 hys).2 (hxs.usedLast hs)
        (hys.usedHead hu)

/-- Between tiles in use nothing is joined. -/
theorem Vacated.eq_of_used (h : Vacated xs t ys us) (hlast : UsedLast xs) (hhead : UsedHead ys) :
    us = xs ++ ⟨t.start, t.size, none⟩ :: ys := by
  cases h with
  | alone _ _ => rfl
  | before hs _ =>
      have hsome := hlast _ (List.getLast?_concat ..)
      rw [hs] at hsome
      exact absurd hsome (by simp)
  | behind _ hu =>
      have hsome := hhead _ rfl
      rw [hu] at hsome
      exact absurd hsome (by simp)
  | between hs _ =>
      have hsome := hlast _ (List.getLast?_concat ..)
      rw [hs] at hsome
      exact absurd hsome (by simp)

/-- The free numbers are those of the tile, and what was free before. -/
theorem Vacated.extent_eq (h : Vacated xs t ys us) :
    extent (fun v ↦ v.use.isNone) us =
      extent (fun v ↦ v.use.isNone) xs + t.size + extent (fun v ↦ v.use.isNone) ys := by
  cases h with
  | alone _ _ => simp [extent_cons, Nat.add_assoc]
  | before hs _ => simp [extent_cons, hs, Nat.add_assoc]
  | behind _ hu => simp [extent_cons, hu, Nat.add_assoc]
  | between hs hu => simp [extent_cons, hs, hu, Nat.add_assoc]

/-- The tiles in use stay. -/
theorem Vacated.mem_iff (h : Vacated xs t ys us) (hv : v.use.isSome) :
    v ∈ us ↔ v ∈ xs ∨ v ∈ ys := by
  have hne (start size : Nat) : v ≠ ⟨start, size, none⟩ := by
    rintro rfl
    exact absurd hv (by simp)
  have hfree {w : Tile τ} (hw : w.use = none) : v ≠ w := by
    rintro rfl
    rw [hw] at hv
    exact absurd hv (by simp)
  cases h with
  | alone _ _ => simp [hne]
  | before hs _ => simp [hne, hfree hs]
  | behind _ hu => simp [hne, hfree hu]
  | between hs hu => simp [hne, hfree hs, hfree hu]

end Stm32F1
