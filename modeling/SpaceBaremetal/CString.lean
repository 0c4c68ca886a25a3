import Mathlib.Data.List.Basic
import Mathlib.Logic.Function.Basic

namespace SpaceBaremetal.CString

-- Addresses are integers, so that a pointer may be moved past either end of an
-- array before it is compared.
abbrev ByteMemory := Int → BitVec 8

-- The loops count `n` down.
def memcpy (dest src : Int) : (n : Nat) → ByteMemory → ByteMemory
  | 0, memory => memory
  | n + 1, memory => memcpy (dest + 1) (src + 1) n (Function.update memory dest (memory src))

def memset (s : Int) (c : BitVec 32) : (n : Nat) → ByteMemory → ByteMemory
  | 0, memory => memory
  | n + 1, memory => memset (s + 1) c n (Function.update memory s (c.setWidth 8))

-- Of bytes as they are promoted to `int`.
def difference (a b : BitVec 8) : Int := (a.toNat : Int) - (b.toNat : Int)

def memcmp (s1 s2 : Int) : (n : Nat) → ByteMemory → Int
  | 0, _ => 0
  | n + 1, memory =>
    if memory s1 ≠ memory s2 then
      difference (memory s1) (memory s2)
    else
      memcmp (s1 + 1) (s2 + 1) n memory

-- The loops that look for the end of a string: `none` when they are not at
-- their end after so many rounds.
def strlen (s : Int) (memory : ByteMemory) : (fuel : Nat) → (len : Nat) → Option Nat
  | 0, _ => none
  | fuel + 1, len => if memory (s + len) ≠ 0 then strlen s memory fuel (len + 1) else some len

def strcpy : (fuel : Nat) → (dest src : Int) → ByteMemory → Option ByteMemory
  | 0, _, _, _ => none
  | fuel + 1, dest, src, memory =>
    let byte := memory src
    let memory := Function.update memory dest byte
    if byte ≠ 0 then strcpy fuel (dest + 1) (src + 1) memory else some memory

def strcmp (memory : ByteMemory) : (fuel : Nat) → (s1 s2 : Int) → Option Int
  | 0, _, _ => none
  | fuel + 1, s1, s2 =>
    if memory s1 ≠ 0 ∧ memory s1 = memory s2 then
      strcmp memory fuel (s1 + 1) (s2 + 1)
    else
      some (difference (memory s1) (memory s2))

def bytesAt (src : Int) (size : Nat) (memory : ByteMemory) : List (BitVec 8) :=
  (List.range size).map fun i : Nat => memory (src + (i : Int))

-- All the bytes are written at once.
def store (dest : Int) (bytes : List (BitVec 8)) (memory : ByteMemory) : ByteMemory := fun a =>
  if dest ≤ a ∧ a < dest + bytes.length then bytes.getD (a - dest).toNat 0 else memory a

section Bytes

variable {dest src : Int} {bytes : List (BitVec 8)} {size : Nat} {memory other : ByteMemory}

@[simp] theorem bytesAt_length : (bytesAt src size memory).length = size := by simp [bytesAt]

theorem bytesAt_succ :
    bytesAt src (size + 1) memory = memory src :: bytesAt (src + 1) size memory := by
  simp only [bytesAt, List.range_succ_eq_map, List.map_cons, List.map_map]
  congr 1
  · simp
  · apply List.map_congr_left
    intro i _
    simp only [Function.comp_apply, Nat.succ_eq_add_one, Int.natCast_add, Int.cast_ofNat_Int]
    congr 1
    omega

theorem bytesAt_congr (h : ∀ a, src ≤ a → a < src + size → memory a = other a) :
    bytesAt src size memory = bytesAt src size other := by
  apply List.map_congr_left
  intro i hi
  rw [List.mem_range] at hi
  exact h _ (by omega) (by omega)

theorem store_nil : store dest [] memory = memory := by
  funext a
  exact if_neg (by simp)

theorem store_cons {byte : BitVec 8} :
    store dest (byte :: bytes) memory =
      store (dest + 1) bytes (Function.update memory dest byte) := by
  funext a
  simp only [store, List.length_cons]
  by_cases hfirst : a = dest
  · subst hfirst
    rw [if_pos (by omega), if_neg (by omega), Function.update_self]
    simp
  · rw [Function.update_of_ne hfirst]
    by_cases hin : dest + 1 ≤ a ∧ a < dest + 1 + bytes.length
    · have hindex : (a - dest).toNat = (a - (dest + 1)).toNat + 1 := by omega
      rw [if_pos (by omega), if_pos hin, hindex, List.getD_cons_succ]
    · rw [if_neg (by omega), if_neg hin]

theorem store_outside {a : Int} (h : a < dest ∨ dest + bytes.length ≤ a) :
    store dest bytes memory a = memory a := if_neg (by omega)

theorem store_inside {i : Nat} (h : i < bytes.length) :
    store dest bytes memory (dest + (i : Int)) = bytes[i] := by
  have hindex : (dest + (i : Int) - dest).toNat = i := by omega
  unfold store
  rw [if_pos (by omega), hindex, List.getD_eq_getElem?_getD, List.getElem?_eq_getElem h,
    Option.getD_some]

theorem bytesAt_store : bytesAt dest bytes.length (store dest bytes memory) = bytes := by
  apply List.ext_getElem
  · simp
  · intro i _ hi
    simp only [bytesAt, List.getElem_map, List.getElem_range]
    exact store_inside hi

-- The loop copies what was there before it began, provided that it does not
-- write into what it reads.
theorem memcpy_apart (h : src + size ≤ dest ∨ dest + size ≤ src) :
    memcpy dest src size memory = store dest (bytesAt src size memory) memory := by
  induction size generalizing dest src memory with
  | zero => exact store_nil.symm
  | succ size ih =>
    have hrest : bytesAt (src + 1) size (Function.update memory dest (memory src)) =
        bytesAt (src + 1) size memory := by
      apply bytesAt_congr
      intro a ha ha'
      exact Function.update_of_ne (by omega) _ _
    rw [memcpy, ih (by omega), hrest, bytesAt_succ, store_cons]

theorem bytesAt_memcpy (h : src + size ≤ dest ∨ dest + size ≤ src) :
    bytesAt dest size (memcpy dest src size memory) = bytesAt src size memory := by
  have hstore : bytesAt dest (bytesAt src size memory).length (memcpy dest src size memory) =
      bytesAt src size memory := by
    rw [memcpy_apart h]
    exact bytesAt_store
  rwa [bytesAt_length] at hstore

theorem memcpy_outside {a : Int} (h : a < dest ∨ dest + size ≤ a) :
    memcpy dest src size memory a = memory a := by
  induction size generalizing dest src memory with
  | zero => rfl
  | succ size ih =>
    rw [memcpy, ih (by omega)]
    exact Function.update_of_ne (by omega) _ _

-- Bytes that are apart from those written are not changed.
theorem bytesAt_store_apart {start : Int} {n : Nat}
    (h : start + n ≤ dest ∨ dest + bytes.length ≤ start) :
    bytesAt start n (store dest bytes memory) = bytesAt start n memory :=
  bytesAt_congr fun a ha ha' => store_outside (by omega)

theorem bytesAt_memcpy_apart {start : Int} {n : Nat}
    (h : start + n ≤ dest ∨ dest + size ≤ start) :
    bytesAt start n (memcpy dest src size memory) = bytesAt start n memory :=
  bytesAt_congr fun a ha ha' => memcpy_outside (by omega)

end Bytes

theorem memset_store {s : Int} {c : BitVec 32} {n : Nat} {memory : ByteMemory} :
    memset s c n memory = store s (List.replicate n (c.setWidth 8)) memory := by
  induction n generalizing s memory with
  | zero => exact store_nil.symm
  | succ n ih => rw [memset, ih, List.replicate_succ, store_cons]

section Order

variable {s1 s2 : Int} {n : Nat} {memory : ByteMemory}

-- The sign of a difference of bytes.
theorem difference_sign {a b : BitVec 8} (hne : a ≠ b) :
    difference a b ≠ 0 ∧ (difference a b < 0 ↔ a < b) := by
  have htoNat : a.toNat ≠ b.toNat := fun heq => hne (BitVec.eq_of_toNat_eq heq)
  rw [BitVec.lt_def]
  unfold difference
  omega

-- Blocks are compared by the first bytes that differ.
theorem memcmp_orders :
    (memcmp s1 s2 n memory = 0 ↔ bytesAt s1 n memory = bytesAt s2 n memory) ∧
      (memcmp s1 s2 n memory < 0 ↔ bytesAt s1 n memory < bytesAt s2 n memory) := by
  induction n generalizing s1 s2 with
  | zero => simp [memcmp, bytesAt]
  | succ n ih =>
    simp only [bytesAt_succ, List.cons.injEq, List.cons_lt_cons_iff]
    by_cases heq : memory s1 = memory s2
    · rw [memcmp, if_neg (not_not.mpr heq), ih.1, ih.2, heq]
      simp [BitVec.lt_irrefl]
    · obtain ⟨hzero, hsign⟩ := difference_sign heq
      rw [memcmp, if_pos heq]
      simp [heq, hzero, hsign]

end Order

section Strings

variable {s s1 s2 dest src : Int} {byte : BitVec 8} {bytes left right : List (BitVec 8)}
  {memory : ByteMemory} {fuel : Nat}

-- The bytes of a string, which ends with the first zero.
def IsString (s : Int) (bytes : List (BitVec 8)) (memory : ByteMemory) : Prop :=
  bytesAt s (bytes.length + 1) memory = bytes ++ [0] ∧ 0 ∉ bytes

theorem isString_nil : IsString s [] memory ↔ memory s = 0 := by
  simp [IsString, bytesAt]

theorem isString_cons : IsString s (byte :: bytes) memory ↔
    memory s = byte ∧ byte ≠ 0 ∧ IsString (s + 1) bytes memory := by
  simp only [IsString, List.length_cons, List.cons_append]
  rw [bytesAt_succ, List.cons.injEq, List.mem_cons, not_or]
  constructor
  · rintro ⟨⟨hfirst, hrest⟩, hne, hmem⟩
    exact ⟨hfirst, Ne.symm hne, hrest, hmem⟩
  · rintro ⟨hfirst, hne, hrest, hmem⟩
    exact ⟨⟨hfirst, hrest⟩, Ne.symm hne, hmem⟩

theorem strcmp_ends (hfuel : 0 < fuel) (h : ¬(memory s1 ≠ 0 ∧ memory s1 = memory s2)) :
    strcmp memory fuel s1 s2 = some (difference (memory s1) (memory s2)) := by
  obtain ⟨fuel, rfl⟩ := Nat.exists_eq_succ_of_ne_zero (Nat.ne_of_gt hfuel)
  exact if_neg h

theorem strcmp_goesOn (h : memory s1 ≠ 0 ∧ memory s1 = memory s2) :
    strcmp memory (fuel + 1) s1 s2 = strcmp memory fuel (s1 + 1) (s2 + 1) := if_pos h

-- Strings are compared as lists of bytes, the shorter one first.
theorem strcmp_isString (hleft : IsString s1 left memory) (hright : IsString s2 right memory)
    (hfuel : left.length < fuel) :
    ∃ answer, strcmp memory fuel s1 s2 = some answer ∧ (answer = 0 ↔ left = right) ∧
      (answer < 0 ↔ left < right) := by
  induction left generalizing s1 s2 right fuel with
  | nil =>
    have hfirst := isString_nil.mp hleft
    refine ⟨_, strcmp_ends hfuel (by simp [hfirst]), ?_⟩
    cases right with
    | nil =>
      have hsame : difference (memory s1) (memory s2) = 0 := by
        rw [hfirst, isString_nil.mp hright]
        rfl
      simp [hsame]
    | cons b right =>
      obtain ⟨hsecond, hb, -⟩ := isString_cons.mp hright
      obtain ⟨hzero, hsign⟩ := difference_sign (Ne.symm hb)
      rw [hfirst, hsecond]
      have hlt : (0 : BitVec 8) < b := by
        have hpos : b.toNat ≠ 0 := fun heq => hb (BitVec.eq_of_toNat_eq heq)
        rw [BitVec.lt_def]
        show 0 < b.toNat
        omega
      exact ⟨iff_of_false hzero (by simp), iff_of_true (hsign.mpr hlt) (by simp)⟩
  | cons a left ih =>
    obtain ⟨hfirst, ha, hrest⟩ := isString_cons.mp hleft
    rw [List.length_cons] at hfuel
    cases right with
    | nil =>
      have hsecond := isString_nil.mp hright
      obtain ⟨hzero, hsign⟩ := difference_sign ha
      refine ⟨_, strcmp_ends (by omega) (by simp [hfirst, hsecond]), ?_⟩
      rw [hfirst, hsecond]
      refine ⟨iff_of_false hzero (by simp), iff_of_false ?_ (by simp)⟩
      rw [hsign]
      exact BitVec.not_lt_zero
    | cons b right =>
      obtain ⟨hsecond, hb, hrest'⟩ := isString_cons.mp hright
      by_cases hab : a = b
      · obtain ⟨fuel, rfl⟩ := Nat.exists_eq_succ_of_ne_zero (show fuel ≠ 0 by omega)
        obtain ⟨answer, hcall, hzero, hsign⟩ := ih hrest hrest' (Nat.lt_of_succ_lt_succ hfuel)
        refine ⟨answer, ?_, ?_, ?_⟩
        · rw [strcmp_goesOn ⟨by rwa [hfirst], by rw [hfirst, hsecond, hab]⟩, hcall]
        · rw [hzero, hab, List.cons.injEq]
          simp
        · rw [hsign, hab, List.cons_lt_cons_iff]
          simp [BitVec.lt_irrefl]
      · obtain ⟨hzero, hsign⟩ := difference_sign hab
        refine ⟨_, strcmp_ends (by omega) (by simp [hfirst, hsecond, hab]), ?_⟩
        rw [hfirst, hsecond, List.cons.injEq, List.cons_lt_cons_iff]
        simp [hab, hzero, hsign]

theorem strlen_isString {len : Nat} (h : IsString (s + len) bytes memory)
    (hfuel : bytes.length < fuel) :
    strlen s memory fuel len = some (len + bytes.length) := by
  induction bytes generalizing len fuel with
  | nil =>
    obtain ⟨fuel, rfl⟩ := Nat.exists_eq_succ_of_ne_zero (Nat.ne_of_gt hfuel)
    exact if_neg (not_not.mpr (isString_nil.mp h))
  | cons byte bytes ih =>
    rw [List.length_cons] at hfuel ⊢
    obtain ⟨fuel, rfl⟩ := Nat.exists_eq_succ_of_ne_zero (show fuel ≠ 0 by omega)
    obtain ⟨hfirst, hne, hrest⟩ := isString_cons.mp h
    have hnext : IsString (s + (len + 1 : Nat)) bytes memory := by
      have haddress : s + (len + 1 : Nat) = s + len + 1 := by omega
      rwa [haddress]
    have hcall := ih hnext (Nat.lt_of_succ_lt_succ hfuel)
    have hround : strlen s memory (fuel + 1) len = strlen s memory fuel (len + 1) :=
      if_pos (by rwa [hfirst])
    rw [hround, hcall]
    congr 1
    omega

theorem IsString.congr {other : ByteMemory} (h : IsString s bytes memory)
    (hsame : ∀ a, s ≤ a → a < s + bytes.length + 1 → other a = memory a) :
    IsString s bytes other := by
  refine ⟨?_, h.2⟩
  rw [← h.1]
  exact bytesAt_congr fun a ha ha' => hsame a ha (by omega)

theorem strcpy_store (hsrc : IsString src bytes memory)
    (hapart : src + bytes.length + 1 ≤ dest ∨ dest + bytes.length + 1 ≤ src)
    (hfuel : bytes.length < fuel) :
    strcpy fuel dest src memory = some (store dest (bytes ++ [0]) memory) := by
  induction bytes generalizing dest src memory fuel with
  | nil =>
    obtain ⟨fuel, rfl⟩ := Nat.exists_eq_succ_of_ne_zero (Nat.ne_of_gt hfuel)
    have hfirst := isString_nil.mp hsrc
    rw [List.nil_append, store_cons, store_nil, ← hfirst]
    exact if_neg (not_not.mpr hfirst)
  | cons byte bytes ih =>
    rw [List.length_cons] at hfuel hapart
    obtain ⟨fuel, rfl⟩ := Nat.exists_eq_succ_of_ne_zero (show fuel ≠ 0 by omega)
    obtain ⟨hfirst, hne, hrest⟩ := isString_cons.mp hsrc
    have hkept : IsString (src + 1) bytes (Function.update memory dest byte) :=
      hrest.congr fun a ha ha' => Function.update_of_ne (by omega) _ _
    have hrestApart : src + 1 + bytes.length + 1 ≤ dest + 1 ∨
        dest + 1 + bytes.length + 1 ≤ src + 1 := by omega
    have hcall := ih hkept hrestApart (Nat.lt_of_succ_lt_succ hfuel)
    rw [List.cons_append, store_cons, ← hcall, ← hfirst]
    exact if_pos (by rwa [hfirst])

-- What was copied is a string equal to the source, and nothing beside it is
-- changed.
theorem strcpy_copies (hsrc : IsString src bytes memory)
    (hapart : src + bytes.length + 1 ≤ dest ∨ dest + bytes.length + 1 ≤ src)
    (hfuel : bytes.length < fuel) :
    ∃ after, strcpy fuel dest src memory = some after ∧ IsString dest bytes after ∧
      strlen dest after fuel 0 = some bytes.length ∧ strcmp after fuel dest src = some 0 ∧
      ∀ a, a < dest ∨ dest + bytes.length < a → after a = memory a := by
  have hlength : (bytes ++ [0]).length = bytes.length + 1 := by simp
  have houtside : ∀ a, a < dest ∨ dest + bytes.length < a →
      store dest (bytes ++ [0]) memory a = memory a := by
    intro a ha
    apply store_outside
    rw [hlength]
    omega
  have hcopy : IsString dest bytes (store dest (bytes ++ [0]) memory) := by
    refine ⟨?_, hsrc.2⟩
    rw [← hlength]
    exact bytesAt_store
  have hkept : IsString src bytes (store dest (bytes ++ [0]) memory) :=
    hsrc.congr fun a ha ha' => houtside a (by omega)
  obtain ⟨answer, hcompare, hzero, -⟩ := strcmp_isString hcopy hkept hfuel
  obtain rfl : answer = 0 := hzero.mpr rfl
  refine ⟨_, strcpy_store hsrc hapart hfuel, hcopy, ?_, hcompare, houtside⟩
  have hlen : strlen dest _ fuel 0 = some (0 + bytes.length) :=
    strlen_isString (by simpa using hcopy) hfuel
  rwa [Nat.zero_add] at hlen

-- The string ab.
def shortString : ByteMemory := fun a => if a = 100 then 97 else if a = 101 then 98 else 0

theorem strcpy_copies_two : ∃ after, strcpy 3 300 100 shortString = some after ∧
    IsString 300 [97, 98] after ∧ strlen 300 after 3 0 = some 2 ∧
      strcmp after 3 300 100 = some 0 ∧
      ∀ a, a < 300 ∨ 300 + (2 : Int) < a → after a = shortString a :=
  strcpy_copies ⟨by decide, by decide⟩ (.inl (by decide)) (by decide)

end Strings

end SpaceBaremetal.CString
