import Mathlib.Data.List.Basic
import Mathlib.Tactic.Cases

-- An arena of numbers in which blocks are given out and taken back. The blocks
-- not given out are kept in ascending order, with room between neighbours.
namespace FreeList

structure Block where
  start : Nat
  size : Nat
deriving DecidableEq, Repr

namespace Block

def limit (b : Block) : Nat := b.start + b.size

def Contains (b : Block) (x : Nat) : Prop := b.start ≤ x ∧ x < b.limit

def Within (base limit : Nat) (b : Block) : Prop := base ≤ b.start ∧ b.limit ≤ limit

def Apart (a b : Block) : Prop := a.limit ≤ b.start ∨ b.limit ≤ a.start

-- Both ends of the block lie on the grid.
def OnGrid (unit : Nat) (b : Block) : Prop := unit ∣ b.start ∧ unit ∣ b.size

structure Fits (base limit unit : Nat) (b : Block) : Prop where
  pos : 0 < b.size
  within : b.Within base limit
  onGrid : b.OnGrid unit

theorem Apart.symm {a b : Block} (h : a.Apart b) : b.Apart a := Or.symm h

theorem OnGrid.limit {unit : Nat} {b : Block} (h : b.OnGrid unit) : unit ∣ b.limit :=
  Nat.dvd_add h.1 h.2

end Block

def bytes : List Block → Nat
  | [] => 0
  | b :: rest => b.size + bytes rest

@[simp] theorem bytes_nil : bytes [] = 0 := rfl

@[simp] theorem bytes_cons (b : Block) (rest : List Block) :
    bytes (b :: rest) = b.size + bytes rest := rfl

@[simp] theorem bytes_append (front back : List Block) :
    bytes (front ++ back) = bytes front + bytes back := by
  induction front with
  | nil => simp
  | cons b front ih => simp [ih, Nat.add_assoc]

theorem size_le_bytes {b : Block} {blocks : List Block} (h : b ∈ blocks) : b.size ≤ bytes blocks := by
  obtain ⟨front, back, rfl⟩ := List.append_of_mem h
  simp only [bytes_append, bytes_cons]
  omega

def Gapped (blocks : List Block) : Prop := blocks.Pairwise fun a b => a.limit < b.start

-- The first block of the wanted size or more. What is left of it stays free
-- when it is more than `slack`.
def firstFit (wanted slack : Nat) : List Block → Option (Block × List Block)
  | [] => none
  | b :: rest =>
    if wanted ≤ b.size then
      if slack < b.size - wanted then
        some (⟨b.start, wanted⟩, ⟨b.start + wanted, b.size - wanted⟩ :: rest)
      else
        some (b, rest)
    else
      (firstFit wanted slack rest).map fun found => (found.1, b :: found.2)

-- A block before the ones above it, with which it is joined if it reaches them.
def joinAbove (b : Block) : List Block → List Block
  | [] => [b]
  | above :: rest =>
    if b.limit = above.start then ⟨b.start, b.size + above.size⟩ :: rest else b :: above :: rest

-- The block put back in its place, joined with the neighbours it touches.
def putBack (b : Block) : List Block → List Block
  | [] => [b]
  | below :: rest =>
    if below.start < b.start then
      if below.limit = b.start then joinAbove ⟨below.start, below.size + b.size⟩ rest
      else below :: putBack b rest
    else
      joinAbove b (below :: rest)

section FirstFit

variable {wanted slack : Nat} {free rest : List Block} {taken : Block}

theorem firstFit_eq_none : firstFit wanted slack free = none ↔ ∀ b ∈ free, b.size < wanted := by
  induction free with
  | nil => simp [firstFit]
  | cons b free ih =>
    rw [firstFit]
    split
    · rename_i hfits
      split <;> simp [Nat.not_lt.mpr hfits]
    · rename_i hsmall
      simp [ih, Nat.lt_of_not_le hsmall]

-- What a first fit does: the blocks before the one found are too small; the
-- rest of it stays in its place or goes with it.
theorem firstFit_cases (h : firstFit wanted slack free = some (taken, rest)) :
    ∃ front b back, free = front ++ b :: back ∧ (∀ small ∈ front, small.size < wanted) ∧
      wanted ≤ b.size ∧
      ((slack < b.size - wanted ∧ taken = ⟨b.start, wanted⟩ ∧
        rest = front ++ ⟨b.start + wanted, b.size - wanted⟩ :: back) ∨
      (b.size - wanted ≤ slack ∧ taken = b ∧ rest = front ++ back)) := by
  induction free generalizing rest with
  | nil => cases h
  | cons b free ih =>
    rw [firstFit] at h
    by_cases hfits : wanted ≤ b.size
    · rw [if_pos hfits] at h
      by_cases hsplit : slack < b.size - wanted
      · rw [if_pos hsplit, Option.some.injEq, Prod.mk.injEq] at h
        exact ⟨[], b, free, rfl, by simp, hfits, .inl ⟨hsplit, h.1.symm, h.2.symm⟩⟩
      · rw [if_neg hsplit, Option.some.injEq, Prod.mk.injEq] at h
        exact ⟨[], b, free, rfl, by simp, hfits,
          .inr ⟨Nat.le_of_not_lt hsplit, h.1.symm, h.2.symm⟩⟩
    · rw [if_neg hfits, Option.map_eq_some_iff] at h
      obtain ⟨⟨found, tail⟩, hfound, heq⟩ := h
      rw [Prod.mk.injEq] at heq
      obtain ⟨rfl, rfl⟩ := heq
      obtain ⟨front, c, back, rfl, hsmall, hc, houtcome⟩ := ih hfound
      refine ⟨b :: front, c, back, rfl, ?_, hc, ?_⟩
      · intro small hmem
        obtain rfl | hmem := List.mem_cons.mp hmem
        · exact Nat.lt_of_not_le hfits
        · exact hsmall small hmem
      · obtain ⟨hsplit, htaken, htail⟩ | ⟨hwhole, htaken, htail⟩ := houtcome
        · exact .inl ⟨hsplit, htaken, by rw [htail]; rfl⟩
        · exact .inr ⟨hwhole, htaken, by rw [htail]; rfl⟩

theorem firstFit_size (h : firstFit wanted slack free = some (taken, rest)) :
    wanted ≤ taken.size ∧ taken.size ≤ wanted + slack := by
  obtain ⟨front, b, back, -, -, hfits, ⟨-, rfl, -⟩ | ⟨hwhole, rfl, -⟩⟩ := firstFit_cases h
  · exact ⟨Nat.le_refl _, by simp⟩
  · exact ⟨hfits, by omega⟩

theorem firstFit_bytes (h : firstFit wanted slack free = some (taken, rest)) :
    taken.size + bytes rest = bytes free := by
  obtain ⟨front, b, back, rfl, -, hfits, ⟨-, rfl, rfl⟩ | ⟨-, rfl, rfl⟩⟩ := firstFit_cases h
  · simp only [bytes_append, bytes_cons]
    omega
  · simp only [bytes_append, bytes_cons]
    omega

theorem firstFit_onGrid {unit : Nat} (hgrid : ∀ b ∈ free, b.OnGrid unit) (hwanted : unit ∣ wanted)
    (h : firstFit wanted slack free = some (taken, rest)) :
    taken.OnGrid unit ∧ ∀ b ∈ rest, b.OnGrid unit := by
  obtain ⟨front, b, back, rfl, -, hfits, ⟨-, rfl, rfl⟩ | ⟨-, rfl, rfl⟩⟩ := firstFit_cases h
  · have hb := hgrid b (by simp)
    refine ⟨⟨hb.1, hwanted⟩, ?_⟩
    intro c hc
    obtain hc | rfl | hc : c ∈ front ∨ c = _ ∨ c ∈ back := by simpa using hc
    · exact hgrid c (by simp [hc])
    · exact ⟨Nat.dvd_add hb.1 hwanted, Nat.dvd_sub hb.2 hwanted⟩
    · exact hgrid c (by simp [hc])
  · refine ⟨hgrid taken (by simp), ?_⟩
    intro c hc
    obtain hc | hc : c ∈ front ∨ c ∈ back := by simpa using hc
    · exact hgrid c (by simp [hc])
    · exact hgrid c (by simp [hc])

-- Each block after a fit lies within one of the blocks before it.
theorem firstFit_within {base limit : Nat} (hwithin : ∀ b ∈ free, b.Within base limit)
    (h : firstFit wanted slack free = some (taken, rest)) :
    taken.Within base limit ∧ ∀ b ∈ rest, b.Within base limit := by
  obtain ⟨front, b, back, rfl, -, hfits, ⟨-, rfl, rfl⟩ | ⟨-, rfl, rfl⟩⟩ := firstFit_cases h
  · have hb := hwithin b (by simp)
    simp only [Block.Within, Block.limit] at hb
    refine ⟨⟨hb.1, by simp only [Block.limit]; omega⟩, ?_⟩
    intro c hc
    obtain hc | rfl | hc : c ∈ front ∨ c = _ ∨ c ∈ back := by simpa using hc
    · exact hwithin c (by simp [hc])
    · exact ⟨by simp only; omega, by simp only [Block.limit]; omega⟩
    · exact hwithin c (by simp [hc])
  · refine ⟨hwithin taken (by simp), ?_⟩
    intro c hc
    obtain hc | hc : c ∈ front ∨ c ∈ back := by simpa using hc
    · exact hwithin c (by simp [hc])
    · exact hwithin c (by simp [hc])

theorem firstFit_pos (hpos : ∀ b ∈ free, 0 < b.size) (hwanted : 0 < wanted)
    (h : firstFit wanted slack free = some (taken, rest)) :
    0 < taken.size ∧ ∀ b ∈ rest, 0 < b.size := by
  obtain ⟨front, b, back, rfl, -, hfits, ⟨hsplit, rfl, rfl⟩ | ⟨-, rfl, rfl⟩⟩ := firstFit_cases h
  · refine ⟨hwanted, ?_⟩
    intro c hc
    obtain hc | rfl | hc : c ∈ front ∨ c = _ ∨ c ∈ back := by simpa using hc
    · exact hpos c (by simp [hc])
    · exact Nat.lt_of_le_of_lt (Nat.zero_le slack) hsplit
    · exact hpos c (by simp [hc])
  · refine ⟨hpos taken (by simp), ?_⟩
    intro c hc
    obtain hc | hc : c ∈ front ∨ c ∈ back := by simpa using hc
    · exact hpos c (by simp [hc])
    · exact hpos c (by simp [hc])

theorem firstFit_fits {base limit unit : Nat} (hfits : ∀ b ∈ free, b.Fits base limit unit)
    (hpos : 0 < wanted) (hgrid : unit ∣ wanted)
    (h : firstFit wanted slack free = some (taken, rest)) :
    taken.Fits base limit unit ∧ ∀ b ∈ rest, b.Fits base limit unit := by
  obtain ⟨htaken, hrest⟩ := firstFit_pos (fun b hb => (hfits b hb).pos) hpos h
  obtain ⟨htaken', hrest'⟩ := firstFit_within (fun b hb => (hfits b hb).within) h
  obtain ⟨htaken'', hrest''⟩ := firstFit_onGrid (fun b hb => (hfits b hb).onGrid) hgrid h
  exact ⟨⟨htaken, htaken', htaken''⟩, fun b hb => ⟨hrest b hb, hrest' b hb, hrest'' b hb⟩⟩

-- A block apart from all free ones stays apart from them and from the block taken.
theorem firstFit_apart {c : Block} (happart : ∀ b ∈ free, c.Apart b)
    (h : firstFit wanted slack free = some (taken, rest)) :
    c.Apart taken ∧ ∀ b ∈ rest, c.Apart b := by
  obtain ⟨front, b, back, rfl, -, hfits, ⟨-, rfl, rfl⟩ | ⟨-, rfl, rfl⟩⟩ := firstFit_cases h
  · have hb := happart b (by simp)
    simp only [Block.Apart, Block.limit] at hb
    refine ⟨by simp only [Block.Apart, Block.limit]; omega, ?_⟩
    intro d hd
    obtain hd | rfl | hd : d ∈ front ∨ d = _ ∨ d ∈ back := by simpa using hd
    · exact happart d (by simp [hd])
    · simp only [Block.Apart, Block.limit]
      omega
    · exact happart d (by simp [hd])
  · refine ⟨happart taken (by simp), ?_⟩
    intro d hd
    obtain hd | hd : d ∈ front ∨ d ∈ back := by simpa using hd
    · exact happart d (by simp [hd])
    · exact happart d (by simp [hd])

theorem gapped_middle {front back : List Block} {b : Block} :
    Gapped (front ++ b :: back) ↔ Gapped front ∧ Gapped back ∧ (∀ f ∈ front, f.limit < b.start) ∧
      (∀ c ∈ back, b.limit < c.start) ∧ ∀ f ∈ front, ∀ c ∈ back, f.limit < c.start := by
  simp only [Gapped, List.pairwise_append, List.pairwise_cons, List.mem_cons]
  constructor
  · rintro ⟨hfront, ⟨hb, hback⟩, hacross⟩
    exact ⟨hfront, hback, fun f hf => hacross f hf b (.inl rfl), hb,
      fun f hf c hc => hacross f hf c (.inr hc)⟩
  · rintro ⟨hfront, hback, hfb, hb, hacross⟩
    refine ⟨hfront, ⟨hb, hback⟩, ?_⟩
    rintro f hf c (rfl | hc)
    · exact hfb f hf
    · exact hacross f hf c hc

theorem firstFit_gapped (hgapped : Gapped free)
    (h : firstFit wanted slack free = some (taken, rest)) :
    Gapped rest ∧ ∀ b ∈ rest, taken.Apart b := by
  obtain ⟨front, b, back, rfl, -, hfits, houtcome⟩ := firstFit_cases h
  obtain ⟨hfront, hback, hfb, hb, hacross⟩ := gapped_middle.mp hgapped
  simp only [Block.limit] at hfb hb hacross
  obtain ⟨-, rfl, rfl⟩ | ⟨-, rfl, rfl⟩ := houtcome
  · refine ⟨gapped_middle.mpr ⟨hfront, hback, ?_, ?_, hacross⟩, ?_⟩
    · intro f hf
      have := hfb f hf
      simp only [Block.limit]
      omega
    · intro c hc
      have := hb c hc
      simp only [Block.limit]
      omega
    · intro c hc
      simp only [Block.Apart, Block.limit]
      obtain hc | rfl | hc : c ∈ front ∨ c = _ ∨ c ∈ back := by simpa using hc
      · have := hfb c hc
        omega
      · exact .inl (Nat.le_refl _)
      · have := hb c hc
        omega
  · refine ⟨List.pairwise_append.mpr ⟨hfront, hback, hacross⟩, ?_⟩
    intro c hc
    simp only [Block.Apart, Block.limit]
    obtain hc | hc : c ∈ front ∨ c ∈ back := by simpa using hc
    · have := hfb c hc
      omega
    · have := hb c hc
      omega

theorem firstFit_contains {x : Nat} (hx : ∃ b ∈ free, b.Contains x)
    (h : firstFit wanted slack free = some (taken, rest)) :
    taken.Contains x ∨ ∃ b ∈ rest, b.Contains x := by
  obtain ⟨c, hc, hcx⟩ := hx
  obtain ⟨front, b, back, rfl, -, hfits, ⟨-, rfl, rfl⟩ | ⟨-, rfl, rfl⟩⟩ := firstFit_cases h
  · obtain hc | rfl | hc : c ∈ front ∨ c = b ∨ c ∈ back := by simpa using hc
    · exact .inr ⟨c, by simp [hc], hcx⟩
    · simp only [Block.Contains, Block.limit] at hcx
      by_cases hlow : x < c.start + wanted
      · left
        simp only [Block.Contains, Block.limit]
        omega
      · refine .inr ⟨⟨c.start + wanted, c.size - wanted⟩, by simp, ?_⟩
        simp only [Block.Contains, Block.limit]
        omega
    · exact .inr ⟨c, by simp [hc], hcx⟩
  · obtain hc | rfl | hc : c ∈ front ∨ c = taken ∨ c ∈ back := by simpa using hc
    · exact .inr ⟨c, by simp [hc], hcx⟩
    · exact .inl hcx
    · exact .inr ⟨c, by simp [hc], hcx⟩

end FirstFit

section PutBack

variable {b : Block} {free : List Block}

theorem joinAbove_forall {p : Block → Prop}
    (hjoin : ∀ x y, p x → p y → x.limit = y.start → p ⟨x.start, x.size + y.size⟩)
    (hb : p b) (hfree : ∀ f ∈ free, p f) : ∀ f ∈ joinAbove b free, p f := by
  cases free with
  | nil => simpa [joinAbove] using hb
  | cons above rest =>
    rw [joinAbove]
    simp only [List.mem_cons, forall_eq_or_imp] at hfree
    split
    · rename_i htouch
      simpa only [List.mem_cons, forall_eq_or_imp] using ⟨hjoin b above hb hfree.1 htouch, hfree.2⟩
    · simpa only [List.mem_cons, forall_eq_or_imp] using ⟨hb, hfree⟩

-- What holds of the blocks, and of two blocks joined when it holds of both,
-- holds of all blocks after an insertion.
theorem putBack_forall {p : Block → Prop}
    (hjoin : ∀ x y, p x → p y → x.limit = y.start → p ⟨x.start, x.size + y.size⟩)
    (hb : p b) (hfree : ∀ f ∈ free, p f) : ∀ f ∈ putBack b free, p f := by
  induction free with
  | nil => simpa [putBack] using hb
  | cons below rest ih =>
    rw [putBack]
    have hrest : ∀ f ∈ rest, p f := fun f hf => hfree f (List.mem_cons_of_mem _ hf)
    split
    · split
      · rename_i htouch
        exact joinAbove_forall hjoin (hjoin below b (hfree below (by simp)) hb htouch) hrest
      · simpa only [List.mem_cons, forall_eq_or_imp] using ⟨hfree below (by simp), ih hrest⟩
    · exact joinAbove_forall hjoin hb hfree

theorem putBack_within {base limit : Nat} (hb : b.Within base limit)
    (hfree : ∀ f ∈ free, f.Within base limit) : ∀ f ∈ putBack b free, f.Within base limit := by
  apply putBack_forall _ hb hfree
  intro x y hx hy htouch
  simp only [Block.Within, Block.limit] at hx hy htouch ⊢
  omega

theorem putBack_onGrid {unit : Nat} (hb : b.OnGrid unit) (hfree : ∀ f ∈ free, f.OnGrid unit) :
    ∀ f ∈ putBack b free, f.OnGrid unit := by
  apply putBack_forall _ hb hfree
  intro x y hx hy htouch
  exact ⟨hx.1, Nat.dvd_add hx.2 hy.2⟩

theorem putBack_pos (hb : 0 < b.size) (hfree : ∀ f ∈ free, 0 < f.size) :
    ∀ f ∈ putBack b free, 0 < f.size := by
  apply putBack_forall _ hb hfree
  intro x y hx hy htouch
  exact Nat.add_pos_left hx _

theorem putBack_fits {base limit unit : Nat} (hb : b.Fits base limit unit)
    (hfree : ∀ f ∈ free, f.Fits base limit unit) : ∀ f ∈ putBack b free, f.Fits base limit unit := by
  intro f hf
  exact ⟨putBack_pos hb.pos (fun f hf => (hfree f hf).pos) f hf,
    putBack_within hb.within (fun f hf => (hfree f hf).within) f hf,
    putBack_onGrid hb.onGrid (fun f hf => (hfree f hf).onGrid) f hf⟩

theorem putBack_apart {c : Block} (hc : 0 < c.size) (hb : c.Apart b)
    (hfree : ∀ f ∈ free, c.Apart f) : ∀ f ∈ putBack b free, c.Apart f := by
  apply putBack_forall _ hb hfree
  intro x y hx hy htouch
  simp only [Block.Apart, Block.limit] at hx hy htouch ⊢
  omega

theorem bytes_joinAbove : bytes (joinAbove b free) = b.size + bytes free := by
  cases free with
  | nil => rfl
  | cons above rest =>
    rw [joinAbove]
    split
    · simp only [bytes_cons]
      omega
    · rfl

@[simp] theorem bytes_putBack : bytes (putBack b free) = b.size + bytes free := by
  induction free with
  | nil => rfl
  | cons below rest ih =>
    rw [putBack]
    split
    · split
      · rw [bytes_joinAbove]
        simp only [bytes_cons]
        omega
      · simp only [bytes_cons, ih]
        omega
    · rw [bytes_joinAbove]

theorem joinAbove_contains {x : Nat} (hx : b.Contains x ∨ ∃ f ∈ free, f.Contains x) :
    ∃ f ∈ joinAbove b free, f.Contains x := by
  cases free with
  | nil => simpa [joinAbove] using hx
  | cons above rest =>
    rw [joinAbove]
    simp only [List.mem_cons, exists_eq_or_imp] at hx
    split
    · rename_i htouch
      simp only [List.mem_cons, exists_eq_or_imp]
      simp only [Block.Contains, Block.limit] at hx htouch ⊢
      obtain hx | hx | hx := hx
      · left
        omega
      · left
        omega
      · exact .inr hx
    · simpa only [List.mem_cons, exists_eq_or_imp] using hx

theorem putBack_contains {x : Nat} (hx : b.Contains x ∨ ∃ f ∈ free, f.Contains x) :
    ∃ f ∈ putBack b free, f.Contains x := by
  induction free with
  | nil => simpa [putBack] using hx
  | cons below rest ih =>
    rw [putBack]
    split
    · simp only [List.mem_cons, exists_eq_or_imp] at hx
      split
      · rename_i htouch
        apply joinAbove_contains
        simp only [Block.Contains, Block.limit] at hx htouch ⊢
        obtain hx | hx | hx := hx
        · left
          omega
        · left
          omega
        · exact .inr hx
      · simp only [List.mem_cons, exists_eq_or_imp]
        obtain hx | hx | hx := hx
        · exact .inr (ih (.inl hx))
        · exact .inl hx
        · exact .inr (ih (.inr hx))
    · exact joinAbove_contains hx

theorem joinAbove_gapped (hgapped : Gapped free) (habove : ∀ f ∈ free, b.limit ≤ f.start) :
    Gapped (joinAbove b free) := by
  cases free with
  | nil => simp [joinAbove, Gapped]
  | cons above rest =>
    rw [joinAbove]
    obtain ⟨hrest, htail⟩ := List.pairwise_cons.mp hgapped
    split
    · rename_i htouch
      refine List.pairwise_cons.mpr ⟨?_, htail⟩
      intro f hf
      have := hrest f hf
      simp only [Block.limit] at this htouch ⊢
      omega
    · rename_i hroom
      have hfirst := habove above (by simp)
      refine List.pairwise_cons.mpr ⟨?_, hgapped⟩
      intro f hf
      obtain rfl | hf := List.mem_cons.mp hf
      · omega
      · have := hrest f hf
        simp only [Block.limit] at this hfirst hroom ⊢
        omega

theorem putBack_gapped (hgapped : Gapped free) (hpos : ∀ f ∈ free, 0 < f.size) (hb : 0 < b.size)
    (happart : ∀ f ∈ free, b.Apart f) : Gapped (putBack b free) := by
  induction free with
  | nil => simp [putBack, Gapped]
  | cons below rest ih =>
    obtain ⟨hrest, htail⟩ := List.pairwise_cons.mp hgapped
    have hbelow := happart below (by simp)
    have hbelowPos := hpos below (by simp)
    simp only [Block.Apart, Block.limit] at hbelow hrest
    rw [putBack]
    split
    · rename_i hlow
      -- the blocks above `below` either lie above `b` or leave room below it
      split
      · rename_i htouch
        apply joinAbove_gapped htail
        intro f hf
        have hgap := hrest f hf
        have hside := happart f (List.mem_cons_of_mem _ hf)
        simp only [Block.Apart, Block.limit] at htouch hside ⊢
        omega
      · rename_i hroom
        refine List.pairwise_cons.mpr ⟨?_, ih htail (fun f hf => hpos f (List.mem_cons_of_mem _ hf))
          (fun f hf => happart f (List.mem_cons_of_mem _ hf))⟩
        apply putBack_forall
        · intro x y hx hy htouch
          exact hx
        · simp only [Block.limit] at hroom ⊢
          omega
        · exact hrest
    · rename_i hhigh
      apply joinAbove_gapped hgapped
      intro f hf
      obtain rfl | hf := List.mem_cons.mp hf
      · simp only [Block.limit]
        omega
      · have hgap := hrest f hf
        simp only [Block.limit]
        omega

theorem putBack_of_above (habove : ∀ f ∈ free, b.start ≤ f.start) :
    putBack b free = joinAbove b free := by
  cases free with
  | nil => rfl
  | cons above rest => rw [putBack, if_neg (Nat.not_lt.mpr (habove above (by simp)))]

-- Insertion above blocks that do not reach the new one.
theorem putBack_append {low high : List Block} (hlow : ∀ f ∈ low, f.start < b.start)
    (hroom : ∀ f ∈ low, f.limit ≠ b.start) (hhigh : ∀ f ∈ high, b.start ≤ f.start) :
    putBack b (low ++ high) = low ++ joinAbove b high := by
  induction low with
  | nil => exact putBack_of_above hhigh
  | cons f low ih =>
    rw [List.cons_append, putBack, if_pos (hlow f (by simp)), if_neg (hroom f (by simp)),
      ih (fun g hg => hlow g (List.mem_cons_of_mem _ hg))
        (fun g hg => hroom g (List.mem_cons_of_mem _ hg)), List.cons_append]

-- Insertion above a block that does reach the new one.
theorem putBack_touching {low high : List Block} {below : Block} (hlow : ∀ f ∈ low, f.start < b.start)
    (hroom : ∀ f ∈ low, f.limit ≠ b.start) (hbelow : below.start < b.start)
    (htouch : below.limit = b.start) :
    putBack b (low ++ below :: high) =
      low ++ joinAbove ⟨below.start, below.size + b.size⟩ high := by
  induction low with
  | nil => rw [List.nil_append, putBack, if_pos hbelow, if_pos htouch, List.nil_append]
  | cons f low ih =>
    rw [List.cons_append, putBack, if_pos (hlow f (by simp)), if_neg (hroom f (by simp)),
      ih (fun g hg => hlow g (List.mem_cons_of_mem _ hg))
        (fun g hg => hroom g (List.mem_cons_of_mem _ hg)), List.cons_append]

end PutBack

-- Blocks with room between them do not fill what they lie in.
theorem bytes_add_length_le {base limit : Nat} {free : List Block} (hgapped : Gapped free)
    (hwithin : ∀ b ∈ free, b.Within base limit) (hle : base ≤ limit) :
    bytes free + free.length ≤ limit - base + 1 := by
  induction free generalizing base with
  | nil => simp
  | cons b free ih =>
    obtain ⟨hrest, htail⟩ := List.pairwise_cons.mp hgapped
    have hb := hwithin b (by simp)
    simp only [Block.Within, Block.limit] at hb hrest
    cases free with
    | nil =>
      simp only [bytes_cons, bytes_nil, List.length_singleton]
      omega
    | cons c free =>
      have hc := hwithin c (by simp)
      have hgap := hrest c (by simp)
      simp only [Block.Within, Block.limit] at hc
      have hinner := @ih (b.start + b.size + 1) htail ?_ (by omega)
      · simp only [bytes_cons, List.length_cons] at hinner ⊢
        omega
      · intro d hd
        have := hwithin d (List.mem_cons_of_mem _ hd)
        have := hrest d hd
        exact ⟨by omega, this |> fun _ => (hwithin d (List.mem_cons_of_mem _ hd)).2⟩

-- A list of blocks with room between them is determined by the numbers in them.
theorem gapped_ext {free other : List Block} (hgapped : Gapped free) (hother : Gapped other)
    (hpos : ∀ b ∈ free, 0 < b.size) (hotherPos : ∀ b ∈ other, 0 < b.size)
    (hsame : ∀ x, (∃ b ∈ free, b.Contains x) ↔ ∃ b ∈ other, b.Contains x) : free = other := by
  induction free generalizing other with
  | nil =>
    cases other with
    | nil => rfl
    | cons c other =>
      have hc := hotherPos c (by simp)
      have hx := (hsame c.start).mpr ⟨c, by simp, Nat.le_refl _, by simp only [Block.limit]; omega⟩
      simp at hx
  | cons b free ih =>
    cases other with
    | nil =>
      have hb := hpos b (by simp)
      have hx := (hsame b.start).mp ⟨b, by simp, Nat.le_refl _, by simp only [Block.limit]; omega⟩
      simp at hx
    | cons c other =>
      obtain ⟨hrest, htail⟩ := List.pairwise_cons.mp hgapped
      obtain ⟨hotherRest, hotherTail⟩ := List.pairwise_cons.mp hother
      have hb := hpos b (by simp)
      have hc := hotherPos c (by simp)
      -- the two lists begin at the same number, the least in any block
      have hstart : b.start = c.start := by
        have hle : ∀ {d : Block} {rest : List Block}, (∀ f ∈ rest, d.limit < f.start) → ∀ {x},
            (∃ f ∈ d :: rest, f.Contains x) → d.start ≤ x := by
          rintro d rest habove x ⟨f, hf, hx⟩
          simp only [Block.Contains] at hx
          obtain rfl | hf := List.mem_cons.mp hf
          · exact hx.1
          · have hgap := habove f hf
            simp only [Block.limit] at hgap
            omega
        apply Nat.le_antisymm
        · apply hle hrest
          exact (hsame c.start).mpr ⟨c, by simp, Nat.le_refl _, by simp only [Block.limit]; omega⟩
        · apply hle hotherRest
          exact (hsame b.start).mp ⟨b, by simp, Nat.le_refl _, by simp only [Block.limit]; omega⟩
      -- the number after a first block is in no block
      have houtside : ∀ {d : Block} {rest : List Block}, (∀ f ∈ rest, d.limit < f.start) →
          ¬∃ f ∈ d :: rest, f.Contains d.limit := by
        rintro d rest habove ⟨f, hf, hx⟩
        simp only [Block.Contains] at hx
        obtain rfl | hf := List.mem_cons.mp hf
        · exact Nat.lt_irrefl _ hx.2
        · have hgap := habove f hf
          omega
      have hlimit : b.limit = c.limit := by
        rcases Nat.lt_trichotomy b.limit c.limit with hlt | heq | hgt
        · refine absurd ((hsame b.limit).mpr ⟨c, by simp, ?_, hlt⟩) (houtside hrest)
          simp only [Block.limit]
          omega
        · exact heq
        · refine absurd ((hsame c.limit).mp ⟨b, by simp, ?_, hgt⟩) (houtside hotherRest)
          simp only [Block.limit]
          omega
      have heq : b = c := by
        obtain ⟨bstart, bsize⟩ := b
        obtain ⟨cstart, csize⟩ := c
        simp only [Block.limit] at hstart hlimit
        rw [hstart, show bsize = csize by omega]
      subst heq
      congr 1
      apply ih htail hotherTail (fun f hf => hpos f (List.mem_cons_of_mem _ hf))
        (fun f hf => hotherPos f (List.mem_cons_of_mem _ hf))
      -- above the first block the two lists hold the same numbers
      have habove : ∀ {rest : List Block}, (∀ f ∈ rest, b.limit < f.start) → ∀ x,
          (∃ f ∈ rest, f.Contains x) ↔ (∃ f ∈ b :: rest, f.Contains x) ∧ ¬b.Contains x := by
        intro rest hgap x
        simp only [Block.Contains, List.mem_cons, exists_eq_or_imp]
        constructor
        · rintro ⟨f, hf, hx⟩
          have := hgap f hf
          exact ⟨.inr ⟨f, hf, hx⟩, by omega⟩
        · rintro ⟨hx | hx, hout⟩
          · exact absurd hx hout
          · exact hx
      intro x
      rw [habove hrest, habove hotherRest, hsame]

-- The whole arena. Its blocks lie within it on the grid, no two of them
-- overlap, and together they are all of it.
structure Arena (base limit unit : Nat) where
  free : List Block
  live : List Block
  gapped : Gapped free
  freeFits : ∀ b ∈ free, b.Fits base limit unit
  liveFits : ∀ b ∈ live, b.Fits base limit unit
  apart : ∀ l ∈ live, ∀ f ∈ free, l.Apart f
  liveApart : live.Pairwise Block.Apart
  total : bytes free + bytes live = limit - base
  covers : ∀ x, base ≤ x → x < limit → ∃ b ∈ free ++ live, b.Contains x

namespace Arena

variable {base limit unit : Nat}

def fresh (hlt : base < limit) (hbase : unit ∣ base) (hlimit : unit ∣ limit) :
    Arena base limit unit where
  free := [⟨base, limit - base⟩]
  live := []
  gapped := by simp [Gapped]
  freeFits := by
    intro b hb
    obtain rfl := List.mem_singleton.mp hb
    refine ⟨Nat.sub_pos_of_lt hlt, ⟨Nat.le_refl _, ?_⟩, hbase, Nat.dvd_sub hlimit hbase⟩
    simp only [Block.limit]
    omega
  liveFits := by simp
  apart := by simp
  liveApart := List.Pairwise.nil
  total := by simp
  covers := by
    intro x hbase hx
    refine ⟨⟨base, limit - base⟩, by simp, hbase, ?_⟩
    simp only [Block.limit]
    omega

def allocate (a : Arena base limit unit) (wanted slack : Nat) (hpos : 0 < wanted)
    (hgrid : unit ∣ wanted) : Option (Block × Arena base limit unit) :=
  match h : firstFit wanted slack a.free with
  | none => none
  | some (taken, rest) =>
    some (taken, {
      free := rest
      live := taken :: a.live
      gapped := (firstFit_gapped a.gapped h).1
      freeFits := (firstFit_fits a.freeFits hpos hgrid h).2
      liveFits := by
        intro b hb
        obtain rfl | hb := List.mem_cons.mp hb
        · exact (firstFit_fits a.freeFits hpos hgrid h).1
        · exact a.liveFits b hb
      apart := by
        intro l hl
        obtain rfl | hl := List.mem_cons.mp hl
        · exact (firstFit_gapped a.gapped h).2
        · exact (firstFit_apart (a.apart l hl) h).2
      liveApart := by
        refine List.pairwise_cons.mpr ⟨?_, a.liveApart⟩
        intro l hl
        exact (firstFit_apart (a.apart l hl) h).1.symm
      total := by
        have hbytes := firstFit_bytes h
        have htotal := a.total
        simp only [bytes_cons]
        omega
      covers := by
        intro x hbase hx
        obtain ⟨b, hb, hbx⟩ := a.covers x hbase hx
        obtain hb | hb := List.mem_append.mp hb
        · obtain hx | ⟨c, hc, hcx⟩ := firstFit_contains ⟨b, hb, hbx⟩ h
          · exact ⟨taken, by simp, hx⟩
          · exact ⟨c, by simp [hc], hcx⟩
        · exact ⟨b, by simp [hb], hbx⟩ })

theorem bytes_erase {b : Block} {live : List Block} (hb : b ∈ live) :
    b.size + bytes (live.erase b) = bytes live := by
  induction live with
  | nil => cases hb
  | cons l live ih =>
    by_cases heq : l = b
    · subst heq
      simp
    · have hmem : b ∈ live := by
        obtain rfl | hmem := List.mem_cons.mp hb
        · exact absurd rfl heq
        · exact hmem
      have := ih hmem
      rw [List.erase_cons_tail (by simpa using heq)]
      simp only [bytes_cons]
      omega

-- The blocks given out apart from one of them.
theorem apart_erase {b l : Block} {live : List Block} (hpairwise : live.Pairwise Block.Apart)
    (hb : b ∈ live) (hl : l ∈ live.erase b) : b.Apart l := by
  have hperm : live.Perm (b :: live.erase b) := List.perm_cons_erase hb
  have hpairwise := hperm.pairwise hpairwise (fun h => h.symm)
  exact (List.pairwise_cons.mp hpairwise).1 l hl

theorem apart_of_mem_of_ne {b c : Block} {live : List Block} (hpairwise : live.Pairwise Block.Apart)
    (hb : b ∈ live) (hc : c ∈ live) (hne : b ≠ c) : b.Apart c :=
  apart_erase hpairwise hb ((List.mem_erase_of_ne hne.symm).mpr hc)

def release (a : Arena base limit unit) (b : Block) (hb : b ∈ a.live) : Arena base limit unit where
  free := putBack b a.free
  live := a.live.erase b
  gapped := putBack_gapped a.gapped (fun f hf => (a.freeFits f hf).pos) (a.liveFits b hb).pos
    (a.apart b hb)
  freeFits := putBack_fits (a.liveFits b hb) a.freeFits
  liveFits := fun l hl => a.liveFits l (List.mem_of_mem_erase hl)
  apart := by
    intro l hl
    have hmem := List.mem_of_mem_erase hl
    exact putBack_apart (a.liveFits l hmem).pos (apart_erase a.liveApart hb hl).symm (a.apart l hmem)
  liveApart := a.liveApart.sublist List.erase_sublist
  total := by
    have herase := bytes_erase hb
    have htotal := a.total
    rw [bytes_putBack]
    omega
  covers := by
    intro x hbase hx
    obtain ⟨c, hc, hcx⟩ := a.covers x hbase hx
    have hback : (b.Contains x ∨ ∃ f ∈ a.free, f.Contains x) ∨ ∃ l ∈ a.live.erase b, l.Contains x := by
      obtain hc | hc := List.mem_append.mp hc
      · exact .inl (.inr ⟨c, hc, hcx⟩)
      · by_cases heq : c = b
        · exact .inl (.inl (heq ▸ hcx))
        · exact .inr ⟨c, (List.mem_erase_of_ne heq).mpr hc, hcx⟩
    obtain hback | ⟨l, hl, hlx⟩ := hback
    · obtain ⟨f, hf, hfx⟩ := putBack_contains hback
      exact ⟨f, by simp [hf], hfx⟩
    · exact ⟨l, by simp [hl], hlx⟩

theorem allocate_eq_none {a : Arena base limit unit} {wanted slack : Nat} {hpos : 0 < wanted}
    {hgrid : unit ∣ wanted} :
    a.allocate wanted slack hpos hgrid = none ↔ ∀ b ∈ a.free, b.size < wanted := by
  have hnone := @firstFit_eq_none wanted slack a.free
  rw [← hnone]
  unfold allocate
  split
  · rename_i h
    simp [h]
  · rename_i h
    simp [h]

theorem allocate_eq_some {a after : Arena base limit unit} {wanted slack : Nat} {hpos : 0 < wanted}
    {hgrid : unit ∣ wanted} {taken : Block}
    (h : a.allocate wanted slack hpos hgrid = some (taken, after)) :
    firstFit wanted slack a.free = some (taken, after.free) ∧ after.live = taken :: a.live := by
  unfold allocate at h
  split at h
  · cases h
  · rename_i hfit
    simp only [Option.some.injEq, Prod.mk.injEq] at h
    obtain ⟨rfl, rfl⟩ := h
    exact ⟨hfit, rfl⟩

@[simp] theorem release_free {a : Arena base limit unit} {b : Block} (hb : b ∈ a.live) :
    (a.release b hb).free = putBack b a.free := rfl

@[simp] theorem release_live {a : Arena base limit unit} {b : Block} (hb : b ∈ a.live) :
    (a.release b hb).live = a.live.erase b := rfl

-- No two blocks start at the same number.
theorem starts_nodup (a : Arena base limit unit) :
    ((a.free ++ a.live).map Block.start).Nodup := by
  have happart : (a.free ++ a.live).Pairwise Block.Apart := by
    refine List.pairwise_append.mpr ⟨?_, a.liveApart, ?_⟩
    · exact a.gapped.imp (fun h => .inl (Nat.le_of_lt h))
    · intro f hf l hl
      exact (a.apart l hl f hf).symm
  have hpos : ∀ b ∈ a.free ++ a.live, 0 < b.size := by
    intro b hb
    obtain hb | hb := List.mem_append.mp hb
    · exact (a.freeFits b hb).pos
    · exact (a.liveFits b hb).pos
  rw [List.Nodup, List.pairwise_map]
  refine happart.imp_of_mem ?_
  intro b c hb hc hbc
  have hbpos := hpos b hb
  have hcpos := hpos c hc
  simp only [Block.Apart, Block.limit] at hbc
  omega

-- A number of the arena is in a free block exactly if it is in none given out.
theorem free_contains_iff {a : Arena base limit unit} {x : Nat} :
    (∃ b ∈ a.free, b.Contains x) ↔ base ≤ x ∧ x < limit ∧ ∀ l ∈ a.live, ¬l.Contains x := by
  constructor
  · rintro ⟨b, hb, hbx⟩
    obtain ⟨hbase, hlimit⟩ := (a.freeFits b hb).within
    simp only [Block.Contains] at hbx ⊢
    refine ⟨by omega, by omega, ?_⟩
    intro l hl hlx
    have happart := a.apart l hl b hb
    simp only [Block.Apart] at happart
    omega
  · rintro ⟨hbase, hlimit, hnone⟩
    obtain ⟨b, hb, hbx⟩ := a.covers x hbase hlimit
    obtain hb | hb := List.mem_append.mp hb
    · exact ⟨b, hb, hbx⟩
    · exact absurd hbx (hnone b hb)

-- The free blocks depend on what is given out and on nothing else.
theorem free_eq_of_live {a other : Arena base limit unit}
    (hsame : ∀ b, b ∈ a.live ↔ b ∈ other.live) : a.free = other.free := by
  apply gapped_ext a.gapped other.gapped (fun b hb => (a.freeFits b hb).pos)
    (fun b hb => (other.freeFits b hb).pos)
  intro x
  rw [free_contains_iff, free_contains_iff]
  simp only [hsame]

end Arena

end FreeList
