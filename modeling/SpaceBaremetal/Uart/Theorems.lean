import SpaceBaremetal.Uart

namespace SpaceBaremetal

section Decimal

-- From index `i` on, the buffer holds the given characters and then a NUL.
def Spells (buf : Int → Char) : Int → List Char → Prop
  | i, [] => buf i = Char.ofNat 0
  | i, c :: cs => buf i = c ∧ c ≠ Char.ofNat 0 ∧ Spells buf (i + 1) cs

theorem spells_update {buf : Int → Char} {i j : Int} {cs : List Char} (c : Char) (hji : j < i)
    (h : Spells buf i cs) : Spells (Function.update buf j c) i cs := by
  induction cs generalizing i with
  | nil =>
    have hne : i ≠ j := by omega
    exact (Function.update_of_ne hne c buf).trans h
  | cons d cs ih =>
    have hne : i ≠ j := by omega
    obtain ⟨hd, hnul, hrest⟩ := h
    exact ⟨(Function.update_of_ne hne c buf).trans hd, hnul, ih (by omega) hrest⟩

theorem chars_of_spells {buf : Int → Char} {i : Int} {cs : List Char} (fuel : Nat)
    (hfuel : cs.length ≤ fuel) (h : Spells buf i cs) : DecBuffer.chars buf fuel i = cs := by
  induction cs generalizing i fuel with
  | nil =>
    cases fuel with
    | zero => rfl
    | succ fuel =>
      have hnul : buf i = Char.ofNat 0 := h
      unfold DecBuffer.chars
      rw [if_pos hnul]
  | cons c cs ih =>
    obtain ⟨hc, hnul, hrest⟩ := h
    cases fuel with
    | zero => exact absurd hfuel (by simp)
    | succ fuel =>
      unfold DecBuffer.chars
      rw [hc, if_neg hnul, ih fuel (by simpa using hfuel) hrest]

theorem digit_eq (n : Nat) (hn : n < 10) :
    Char.ofNat (48 + n) = n.digitChar ∧ n.digitChar ≠ Char.ofNat 0 := by
  revert n
  decide

-- A round puts the last digit of the value in front.
theorem putDigit_spells {d : DecBuffer} {cs : List Char} (h : Spells d.buf d.i cs) :
    Spells d.putDigit.buf d.putDigit.i ((d.value.toNat % 10).digitChar :: cs) := by
  obtain ⟨hdigit, hnul⟩ := digit_eq (d.value.toNat % 10) (Nat.mod_lt _ (by decide))
  have hlow : (d.value % 10).toNat = d.value.toNat % 10 := BitVec.toNat_umod
  unfold DecBuffer.putDigit
  dsimp only
  rw [hlow, hdigit]
  refine ⟨Function.update_self _ _ _, hnul, ?_⟩
  rw [Int.sub_add_cancel]
  exact spells_update _ (by omega) h

theorem loop_of_zero (fuel : Nat) {d : DecBuffer} (h : d.value = 0) : d.loop fuel = d := by
  cases fuel with
  | zero => rfl
  | succ fuel =>
    unfold DecBuffer.loop
    rw [if_pos h]

theorem putDigit_value (d : DecBuffer) : d.putDigit.value.toNat = d.value.toNat / 10 :=
  BitVec.toNat_udiv

theorem loop_succ_of_ne (fuel : Nat) {d : DecBuffer} (h : d.value ≠ 0) :
    d.loop (fuel + 1) = d.putDigit.loop fuel := by
  rw [DecBuffer.loop, if_neg h]

-- A value of at most `j` digits moves the index down by at most `j` places, and
-- `j` rounds are enough for it.
theorem loop_bounds (rounds j : Nat) (d : DecBuffer) (hlt : d.value.toNat < 10 ^ j) :
    d.i - j ≤ (d.loop rounds).i ∧ (d.loop rounds).i ≤ d.i ∧
      (j ≤ rounds → (d.loop rounds).value = 0) := by
  induction rounds generalizing j d with
  | zero =>
    have hstays : d.loop 0 = d := rfl
    rw [hstays]
    refine ⟨by omega, Int.le_refl _, fun hj => ?_⟩
    rw [Nat.le_zero.mp hj, Nat.pow_zero, Nat.lt_one_iff] at hlt
    exact BitVec.eq_of_toNat_eq hlt
  | succ rounds ih =>
    by_cases hzero : d.value = 0
    · rw [loop_of_zero (rounds + 1) hzero]
      exact ⟨by omega, Int.le_refl _, fun _ => hzero⟩
    · cases j with
      | zero =>
        rw [Nat.pow_zero, Nat.lt_one_iff] at hlt
        exact absurd (BitVec.eq_of_toNat_eq hlt) hzero
      | succ j =>
        have hquotient := putDigit_value d
        have hindex : d.putDigit.i = d.i - 1 := rfl
        obtain ⟨hlow, hhigh, hends⟩ := ih j d.putDigit (by rw [Nat.pow_succ] at hlt; omega)
        rw [loop_succ_of_ne rounds hzero]
        exact ⟨by omega, by omega, fun hj => hends (by omega)⟩

-- The loop writes the digits of the value from the last to the first.
theorem loop_spells (fuel : Nat) (d : DecBuffer) (cs : List Char) (hpos : 0 < d.value.toNat)
    (hfuel : d.value.toNat < 10 ^ fuel) (h : Spells d.buf d.i cs) :
    Spells (d.loop fuel).buf (d.loop fuel).i (Nat.toDigits 10 d.value.toNat ++ cs) := by
  induction fuel generalizing d cs with
  | zero => omega
  | succ fuel ih =>
    have hne : d.value ≠ 0 := by
      intro hzero
      rw [hzero] at hpos
      exact absurd hpos (by decide)
    have hquotient := putDigit_value d
    have hspells := putDigit_spells h
    rw [loop_succ_of_ne fuel hne]
    by_cases hsmall : d.value.toNat < 10
    · have hzero : d.putDigit.value = 0 :=
        BitVec.eq_of_toNat_eq (by rw [hquotient, Nat.div_eq_of_lt hsmall]; rfl)
      rw [loop_of_zero fuel hzero, Nat.toDigits_of_lt_base hsmall]
      rwa [Nat.mod_eq_of_lt hsmall] at hspells
    · have hrest := ih d.putDigit _ (by omega) (by rw [hquotient, Nat.pow_succ] at *; omega) hspells
      rwa [hquotient, List.append_cons, ← Nat.toDigits_of_base_le (by decide) (by omega)] at hrest

theorem toNat_lt_ten_pow (value : BitVec 32) : value.toNat < 10 ^ 10 :=
  Nat.lt_trans value.isLt (by decide)

-- What `uart_put_dec` prints is the decimal numeral of the value.
theorem decText_eq (value : BitVec 32) : decText value = toString value.toNat := by
  rw [Nat.toString_eq_ofList_toDigits]
  unfold decText
  split_ifs with hzero
  · rw [hzero]
    rfl
  · have hpos : 0 < value.toNat := Nat.pos_of_ne_zero fun h => hzero (BitVec.eq_of_toNat_eq h)
    have hlt := toNat_lt_ten_pow value
    have hspells := loop_spells 32 (DecBuffer.init value) [] hpos
      (Nat.lt_of_lt_of_le hlt (by decide)) rfl
    have hlength : (Nat.toDigits 10 value.toNat).length ≤ 10 :=
      (Nat.length_toDigits_le_iff (by decide) (by decide)).mpr hlt
    rw [List.append_nil] at hspells
    congr 1
    exact chars_of_spells 11 (Nat.le_succ_of_le hlength) hspells

-- The locals before the loop, where all of `buf` but the NUL is what the stack
-- held before.
def DecBuffer.start (stale : Int → Char) (value : BitVec 32) : DecBuffer where
  value := value
  i := 10
  buf := Function.update stale 10 (Char.ofNat 0)

-- How the loop runs, whatever the stack held.
structure LoopSpells (value : BitVec 32) (digits : List Char) : Prop where
  index : ∀ stale rounds, 0 ≤ ((DecBuffer.start stale value).loop rounds).i ∧
    ((DecBuffer.start stale value).loop rounds).i ≤ 10
  ends : ∀ stale, ((DecBuffer.start stale value).loop 10).value = 0
  spells : ∀ stale, value ≠ 0 →
    Spells ((DecBuffer.start stale value).loop 10).buf ((DecBuffer.start stale value).loop 10).i
      digits

structure CanonicalDecimal (value : BitVec 32) (digits : List Char) : Prop where
  ne_nil : digits ≠ []
  isDigit : ∀ c ∈ digits, c.isDigit = true
  reading : Nat.ofDigitChars 10 digits 0 = value.toNat
  leading : digits.head? = some '0' → value = 0 ∧ digits = ['0']

theorem head_toDigits_ne_zero (n : Nat) (hpos : 0 < n) :
    (Nat.toDigits 10 n).head? ≠ some '0' := by
  induction n using Nat.strong_induction_on with
  | _ n ih =>
    by_cases hsmall : n < 10
    · have hdigits : ∀ m < 10, 0 < m → [m.digitChar].head? ≠ some '0' := by decide
      rw [Nat.toDigits_of_lt_base hsmall]
      exact hdigits n hsmall hpos
    · rw [Nat.toDigits_of_base_le (by decide) (by omega),
        List.head?_append_of_ne_nil _ Nat.toDigits_ne_nil]
      exact ih (n / 10) (by omega) (by omega)

theorem canonicalDecimal_toDigits (value : BitVec 32) :
    CanonicalDecimal value (Nat.toDigits 10 value.toNat) where
  ne_nil := Nat.toDigits_ne_nil
  isDigit := fun _ hc => Nat.isDigit_of_mem_toDigits (by decide) (by decide) hc
  reading := Nat.ofDigitChars_ten_toDigits
  leading := by
    intro hhead
    have hzero : value.toNat = 0 := by
      by_contra hne
      exact head_toDigits_ne_zero _ (Nat.pos_of_ne_zero hne) hhead
    rw [hzero]
    exact ⟨BitVec.eq_of_toNat_eq hzero, rfl⟩

theorem loopSpells_toDigits (value : BitVec 32) :
    LoopSpells value (Nat.toDigits 10 value.toNat) where
  index := by
    intro stale rounds
    obtain ⟨hlow, hhigh, -⟩ :=
      loop_bounds rounds 10 (DecBuffer.start stale value) (toNat_lt_ten_pow value)
    exact ⟨hlow, hhigh⟩
  ends := by
    intro stale
    obtain ⟨-, -, hends⟩ := loop_bounds 10 10 (DecBuffer.start stale value) (toNat_lt_ten_pow value)
    exact hends (Nat.le_refl 10)
  spells := by
    intro stale hne
    have hpos : 0 < value.toNat := Nat.pos_of_ne_zero fun h => hne (BitVec.eq_of_toNat_eq h)
    have hnul : Spells (DecBuffer.start stale value).buf 10 [] := by
      change Function.update stale 10 (Char.ofNat 0) 10 = Char.ofNat 0
      rw [Function.update_self]
    have hspells := loop_spells 10 (DecBuffer.start stale value) [] hpos (toNat_lt_ten_pow value) hnul
    rwa [List.append_nil] at hspells

-- Every value is printed as its canonical numeral, and the loop stays within the
-- buffer.
theorem uart_put_dec_canonical (value : BitVec 32) (w : World) :
    ∃ digits, uartPutDec value w = uartWrite [String.ofList digits] w ∧
      CanonicalDecimal value digits ∧ LoopSpells value digits := by
  refine ⟨Nat.toDigits 10 value.toNat, ?_, canonicalDecimal_toDigits value,
    loopSpells_toDigits value⟩
  rw [uartPutDec_eq, decText_eq, Nat.toString_eq_ofList_toDigits]

theorem decText_injective : Function.Injective decText := by
  intro value other h
  rw [decText_eq, decText_eq] at h
  have hdigits := congrArg (fun text => Nat.ofDigitChars 10 text.toList 0) h
  exact BitVec.eq_of_toNat_eq (by simpa [Nat.toString_eq_ofList_toDigits] using hdigits)

end Decimal

end SpaceBaremetal
