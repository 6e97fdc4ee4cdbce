import Mathlib

/-!
# Streams cut into lines

A stream is cut into lines by two marks: the first ends a line if the second
comes right behind it.  If something else comes, the piece so far is given up and
so is what came.  A piece may be given up as well when it has become too long.  A
line that is complete stays until it is taken; what comes in the meantime is
lost.
-/

namespace Stm32F1

variable {α : Type}

/-- Where in a line the stream is. -/
inductive Mode
  | /-- The line goes on. -/
    inside
  | /-- The first mark has come. -/
    marked
  | /-- The line is complete. -/
    complete
  deriving DecidableEq

/-- A stream that is cut into lines. -/
structure Pieces (α : Type) where
  /-- What has come since the last restart. -/
  piece : List α
  mode : Mode
  /-- The length of the longest piece that was given up since the last line was taken. -/
  longest : Nat
  /-- The lines that were completed. -/
  lines : List (List α)

namespace Pieces

/-- Nothing has come yet. -/
def empty : Pieces α := ⟨[], .inside, 0, []⟩

/-- The piece so far is given up. -/
def giveUp (p : Pieces α) : Pieces α :=
  { p with piece := [], mode := .inside, longest := max p.longest p.piece.length }

/-- The line that is complete is taken. -/
def take (p : Pieces α) : Pieces α := { p with piece := [], mode := .inside, longest := 0 }

/-- Something other than a mark. -/
def add (limit : Nat) (p : Pieces α) (b : α) : Pieces α :=
  let p := { p with piece := p.piece ++ [b] }
  if p.piece.length = limit then p.giveUp else p

/-- A piece that reaches the limit is given up. -/
theorem add_of_length {limit : Nat} {p : Pieces α} (h : p.piece.length + 1 = limit) (b : α) :
    p.add limit b = { p with piece := p.piece ++ [b] }.giveUp := by
  rw [add, if_pos]
  rw [List.length_append]
  exact h

/-- One that does not is longer now. -/
theorem add_of_ne {limit : Nat} {p : Pieces α} (h : p.piece.length + 1 ≠ limit) (b : α) :
    p.add limit b = { p with piece := p.piece ++ [b] } := by
  rw [add, if_neg]
  rw [List.length_append]
  exact h

section Next

variable [DecidableEq α]

/-- Pieces are given up when they have become as long as `limit`; for `limit = 0` they never are. -/
def next (limit : Nat) (first second : α) (p : Pieces α) (b : α) : Pieces α :=
  match p.mode with
  | .inside => if b = first then { p with mode := .marked } else p.add limit b
  | .marked =>
      if b = second then { p with mode := .complete, lines := p.lines ++ [p.piece] } else p.giveUp
  | .complete => p

variable {limit : Nat} {first second b : α} {p : Pieces α}

/-- What comes while a line is complete is lost. -/
theorem next_complete (h : p.mode = .complete) (b : α) : p.next limit first second b = p := by
  rw [next, h]

/-- The first mark is not part of the line. -/
theorem next_first (h : p.mode = .inside) :
    p.next limit first second first = { p with mode := .marked } := by
  rw [next, h]
  exact if_pos rfl

/-- Anything else is. -/
theorem next_add (h : p.mode = .inside) (hb : b ≠ first) :
    p.next limit first second b = p.add limit b := by
  rw [next, h]
  exact if_neg hb

/-- The second mark right behind the first one completes the line. -/
theorem next_second (h : p.mode = .marked) : p.next limit first second second =
    { p with mode := .complete, lines := p.lines ++ [p.piece] } := by
  rw [next, h]
  exact if_pos rfl

/-- Anything else there gives the piece up. -/
theorem next_giveUp (h : p.mode = .marked) (hb : b ≠ second) :
    p.next limit first second b = p.giveUp := by
  rw [next, h]
  exact if_neg hb

end Next

variable {limit : Nat} {first second b : α} {p q : Pieces α}

/-- What a piece never contains. -/
structure Sound (limit : Nat) (first : α) (p : Pieces α) : Prop where
  clean : first ∉ p.piece
  short : limit ≠ 0 → p.piece.length < limit

/-- An empty piece is sound. -/
theorem sound_nil (h : p.piece = []) : p.Sound limit first where
  clean := h ▸ List.not_mem_nil
  short hl := h ▸ Nat.pos_of_ne_zero hl

/-- A piece stays free of the first mark and below the limit. -/
theorem Sound.add (h : p.Sound limit first) (hb : b ≠ first) :
    (p.add limit b).Sound limit first := by
  by_cases hlen : p.piece.length + 1 = limit
  · rw [add_of_length hlen]
    exact sound_nil rfl
  · rw [add_of_ne hlen]
    constructor
    · intro hmem
      rcases List.mem_append.1 hmem with hmem | hmem
      · exact h.clean hmem
      · exact hb (List.mem_singleton.1 hmem).symm
    · intro hl
      have := h.short hl
      rw [List.length_append, List.length_singleton]
      omega

/-- A line that goes on is not complete. -/
theorem inside_ne : Mode.inside ≠ .complete := by decide

/-- Nor is one of which only the first mark has come. -/
theorem marked_ne : Mode.marked ≠ .complete := by decide

/-! ## Lines that were handed on -/

/-- The lines are those that were taken, and the one that is complete. -/
def HandedOn (p : Pieces α) (taken : List (List α)) : Prop :=
  p.lines = taken ++ if p.mode = .complete then [p.piece] else []

variable {taken : List (List α)}

/-- While no line is complete, the lines are those that were taken. -/
theorem HandedOn.lines (h : p.HandedOn taken) (hm : p.mode ≠ .complete) : p.lines = taken := by
  rw [h, if_neg hm, List.append_nil]

/-- And conversely. -/
theorem handedOn_of_lines (h : p.lines = taken) (hm : p.mode ≠ .complete) : p.HandedOn taken := by
  rw [HandedOn, if_neg hm, List.append_nil, h]

/-- Taking the complete line hands it on. -/
theorem HandedOn.take (h : p.HandedOn taken) (hm : p.mode = .complete) :
    p.take.HandedOn (taken ++ [p.piece]) := by
  refine handedOn_of_lines ?_ inside_ne
  rw [HandedOn, if_pos hm] at h
  exact h

/-- Whatever comes, the lines are those that were taken and the one that is complete. -/
theorem HandedOn.next [DecidableEq α] (h : p.HandedOn taken) (b : α) :
    (p.next limit first second b).HandedOn taken := by
  cases hm : p.mode with
  | inside =>
      have hlines := h.lines (hm ▸ inside_ne)
      by_cases hb : b = first
      · rw [hb, next_first hm]
        exact handedOn_of_lines hlines marked_ne
      · rw [next_add hm hb]
        by_cases hlen : p.piece.length + 1 = limit
        · rw [add_of_length hlen]
          exact handedOn_of_lines hlines inside_ne
        · rw [add_of_ne hlen]
          exact handedOn_of_lines hlines (hm ▸ inside_ne)
  | marked =>
      have hlines := h.lines (hm ▸ marked_ne)
      by_cases hb : b = second
      · rw [hb, next_second hm]
        exact congrArg (· ++ [p.piece]) hlines
      · rw [next_giveUp hm hb]
        exact handedOn_of_lines hlines inside_ne
  | complete =>
      rw [next_complete hm]
      exact h

/-! ## Pieces without a limit -/

/-- The last of what has come is what has come since a piece was last given up as too long. -/
structure Tail (limit : Nat) (p q : Pieces α) : Prop where
  mode : p.mode = q.mode
  length : p.piece.length = q.piece.length % limit
  suffix : p.piece <:+ q.piece

/-- Two empty pieces are each other's tails. -/
theorem tail_nil (hmode : p.mode = q.mode) (hp : p.piece = []) (hq : q.piece = []) :
    Tail limit p q where
  mode := hmode
  length := by rw [hp, hq, List.length_nil, Nat.zero_mod]
  suffix := hp ▸ List.nil_suffix

/-- Cutting off what is too long leaves the end of the whole, and its length modulo the limit. -/
theorem Tail.add (h : Tail limit p q) (hm : p.mode = .inside) (hpos : 0 < limit) (b : α) :
    Tail limit (p.add limit b) (q.add 0 b) := by
  rw [add_of_ne (p := q) (Nat.succ_ne_zero _)]
  have hlt : p.piece.length < limit := h.length ▸ Nat.mod_lt _ hpos
  have hmod : (q.piece ++ [b]).length % limit = (p.piece.length + 1) % limit := by
    rw [List.length_append, h.length, Nat.mod_add_mod]
    rfl
  by_cases hlen : p.piece.length + 1 = limit
  · rw [add_of_length hlen]
    refine ⟨hm.symm.trans h.mode, ?_, List.nil_suffix⟩
    rw [hmod, hlen, Nat.mod_self]
    rfl
  · rw [add_of_ne hlen]
    refine ⟨h.mode, ?_, ?_⟩
    · rw [hmod, Nat.mod_eq_of_lt (by omega)]
      exact List.length_append
    · obtain ⟨front, hfront⟩ := h.suffix
      exact ⟨front, by rw [← hfront, List.append_assoc]⟩

/-- With and without a limit, a stream is cut into lines at the same places. -/
theorem Tail.next [DecidableEq α] (h : Tail limit p q) (hpos : 0 < limit) (b : α) :
    Tail limit (p.next limit first second b) (q.next 0 first second b) := by
  cases hm : p.mode with
  | inside =>
      have hm' : q.mode = .inside := h.mode.symm.trans hm
      by_cases hb : b = first
      · rw [hb, next_first hm, next_first hm']
        exact ⟨rfl, h.length, h.suffix⟩
      · rw [next_add hm hb, next_add hm' hb]
        exact h.add hm hpos b
  | marked =>
      have hm' : q.mode = .marked := h.mode.symm.trans hm
      by_cases hb : b = second
      · rw [hb, next_second hm, next_second hm']
        exact ⟨rfl, h.length, h.suffix⟩
      · rw [next_giveUp hm hb, next_giveUp hm' hb]
        exact tail_nil rfl rfl rfl
  | complete =>
      rw [next_complete hm, next_complete (h.mode.symm.trans hm)]
      exact h

/-- A new line begins the same with and without a limit. -/
theorem Tail.take (p q : Pieces α) : Tail limit p.take q.take := tail_nil rfl rfl rfl

end Pieces

end Stm32F1
