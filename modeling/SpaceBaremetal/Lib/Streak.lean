import Mathlib.Data.List.TakeWhile

-- A counter of good events that a breaking event sets back to zero, and the
-- difference between reaching a multiple of `n` and a streak of `n` in a row.
namespace Streak

variable {ε : Type} (good broken : ε → Bool)

def count (events : List ε) : Nat :=
  events.foldl (fun c e => if good e then c + 1 else if broken e then 0 else c) 0

def unbroken (e : ε) : Bool := good e || !broken e

def GoodAt (events : List ε) (k : Nat) : Prop := ∃ e, events[k]? = some e ∧ good e = true

def FiresAt (n : Nat) (events : List ε) (k : Nat) : Prop :=
  GoodAt good events k ∧ n ∣ count good broken (events.take (k + 1))

-- The last `n` events up to `k` were good, and none before the last of them
-- fired.
def StreakAt (n : Nat) (events : List ε) (k : Nat) (fires : Nat → Prop) : Prop :=
  n ≤ k + 1 ∧ (∀ j, k + 1 - n ≤ j → j ≤ k → GoodAt good events j) ∧
    ∀ j, k + 1 - n ≤ j → j < k → ¬fires j

-- An event that is neither good nor breaking comes after a count that is no
-- multiple of `n`, and enough good events follow to complete the count.
def Interrupted (n : Nat) (events : List ε) : Prop :=
  ∃ j e, events[j]? = some e ∧ good e = false ∧ broken e = false ∧
    ¬n ∣ count good broken (events.take j) ∧
    n - count good broken (events.take j) % n ≤
      ((events.drop (j + 1)).takeWhile (unbroken good broken)).countP good

section Count

variable {events : List ε} {k : Nat}

theorem count_append_singleton (events : List ε) (e : ε) :
    count good broken (events ++ [e]) =
      if good e then count good broken events + 1
      else if broken e then 0 else count good broken events := by
  unfold count
  rw [List.foldl_append]
  rfl

theorem count_take_succ {e : ε} (h : events[k]? = some e) :
    count good broken (events.take (k + 1)) =
      if good e then count good broken (events.take k) + 1
      else if broken e then 0 else count good broken (events.take k) := by
  have htake : events.take (k + 1) = events.take k ++ [e] := by
    rw [List.take_add_one, h]
    rfl
  rw [htake, count_append_singleton]

theorem count_take_succ_of_kept {e : ε} (h : events[k]? = some e) (hbad : good e = false)
    (hkept : broken e = false) :
    count good broken (events.take (k + 1)) = count good broken (events.take k) := by
  rw [count_take_succ good broken h, hbad, hkept, if_neg Bool.false_ne_true,
    if_neg Bool.false_ne_true]

theorem count_take_succ_of_broken {e : ε} (h : events[k]? = some e) (hbad : good e = false)
    (hbroken : broken e = true) : count good broken (events.take (k + 1)) = 0 := by
  rw [count_take_succ good broken h, hbad, if_neg Bool.false_ne_true, if_pos hbroken]

-- A run of good events counts up one by one.
theorem count_take_add (k m : Nat) (h : ∀ j, k ≤ j → j < k + m → GoodAt good events j) :
    count good broken (events.take (k + m)) = count good broken (events.take k) + m := by
  induction m with
  | zero => rfl
  | succ m ih =>
    obtain ⟨e, he, hgood⟩ := h (k + m) (by omega) (by omega)
    rw [← Nat.add_assoc, count_take_succ good broken he, if_pos hgood,
      ih (fun j hk hj => h j hk (by omega))]
    rfl

end Count

section Split

variable {good broken} {events : List ε} {k : Nat}

theorem not_goodAt_of {e : ε} (h : events[k]? = some e) (hbad : good e = false) :
    ¬GoodAt good events k := by
  rintro ⟨e', he', hgood⟩
  obtain rfl := Option.some.inj (h.symm.trans he')
  rw [hbad] at hgood
  cases hgood

-- The good events right before and up to `k`.
theorem exists_streak (h : GoodAt good events k) :
    ∃ start ≤ k, (∀ j, start ≤ j → j ≤ k → GoodAt good events j) ∧
      ∀ i, i + 1 = start → ¬GoodAt good events i := by
  induction k with
  | zero =>
    refine ⟨0, Nat.le_refl _, ?_, by omega⟩
    intro j _ hj
    rwa [Nat.le_zero.mp hj]
  | succ k ih =>
    by_cases hbefore : GoodAt good events k
    · obtain ⟨start, hstart, hstreak, hfirst⟩ := ih hbefore
      refine ⟨start, by omega, ?_, hfirst⟩
      intro j hj hjk
      by_cases hlast : j = k + 1
      · rwa [hlast]
      · exact hstreak j hj (by omega)
    · refine ⟨k + 1, Nat.le_refl _, ?_, ?_⟩
      · intro j hj hjk
        rwa [show j = k + 1 by omega]
      · intro i hi
        rwa [show i = k by omega]

-- Good events that follow one another all lie before the next break.
theorem le_countP_takeWhile {rest : List ε} (t : Nat) (h : ∀ j, j < t → GoodAt good rest j) :
    t ≤ (rest.takeWhile (unbroken good broken)).countP good := by
  induction t generalizing rest with
  | zero => exact Nat.zero_le _
  | succ t ih =>
    cases rest with
    | nil =>
      obtain ⟨e, he, -⟩ := h 0 (by omega)
      simp at he
    | cons e rest =>
      obtain ⟨e', he', hgood⟩ := h 0 (by omega)
      obtain rfl : e = e' := by simpa using he'
      have hrest : ∀ j, j < t → GoodAt good rest j := by
        intro j hj
        obtain ⟨e', he', hgood'⟩ := h (j + 1) (by omega)
        exact ⟨e', by simpa using he', hgood'⟩
      have hunbroken : unbroken good broken e = true := by simp [unbroken, hgood]
      rw [List.takeWhile_cons_of_pos hunbroken, List.countP_cons_of_pos hgood]
      exact Nat.succ_le_succ (ih hrest)

-- The events up to position `m` of `rest` end with the `d`-th good one, and the
-- count that `pre` left never falls before it.
structure NthGood (good broken : ε → Bool) (pre rest : List ε) (d m : Nat) : Prop where
  goodAt : GoodAt good rest m
  count_eq : count good broken (pre ++ rest.take (m + 1)) = count good broken pre + d
  count_le : ∀ i, i ≤ m + 1 → count good broken pre ≤ count good broken (pre ++ rest.take i)

theorem nthGood_first (pre rest : List ε) {e : ε} (hgood : good e = true) :
    NthGood good broken pre (e :: rest) 1 0 := by
  have hstep : count good broken (pre ++ [e]) = count good broken pre + 1 := by
    rw [count_append_singleton, if_pos hgood]
  refine ⟨⟨e, rfl, hgood⟩, hstep, ?_⟩
  intro i hi
  cases i with
  | zero => simp
  | succ i =>
    obtain rfl : i = 0 := by omega
    rw [List.take_one]
    exact Nat.le_of_lt (hstep ▸ Nat.lt_succ_self _)

theorem nthGood_cons {pre rest : List ε} {e : ε} {d m step : Nat}
    (hstep : count good broken (pre ++ [e]) = count good broken pre + step)
    (h : NthGood good broken (pre ++ [e]) rest d m) :
    NthGood good broken pre (e :: rest) (d + step) (m + 1) := by
  have hsplit : ∀ i, pre ++ (e :: rest).take (i + 1) = pre ++ [e] ++ rest.take i := by
    intro i
    rw [List.take_succ_cons, ← List.singleton_append, List.append_assoc]
  refine ⟨h.goodAt, ?_, ?_⟩
  · rw [hsplit, h.count_eq]
    omega
  · intro i hi
    cases i with
    | zero => simp
    | succ i =>
      have hle := h.count_le i (by omega)
      rw [hsplit]
      omega

theorem exists_nth_good (pre rest : List ε) (d : Nat) (hd : 0 < d)
    (hle : d ≤ (rest.takeWhile (unbroken good broken)).countP good) :
    ∃ m, NthGood good broken pre rest d m := by
  induction rest generalizing pre d with
  | nil => exact absurd hle (by simp; omega)
  | cons e rest ih =>
    by_cases hunbroken : unbroken good broken e = true
    · rw [List.takeWhile_cons_of_pos hunbroken] at hle
      cases hgood : good e with
      | true =>
        rw [List.countP_cons_of_pos hgood] at hle
        by_cases hlast : d = 1
        · exact ⟨0, hlast ▸ nthGood_first pre rest hgood⟩
        · have hstep : count good broken (pre ++ [e]) = count good broken pre + 1 := by
            rw [count_append_singleton, if_pos hgood]
          obtain ⟨m, hm⟩ := ih (pre ++ [e]) (d - 1) (by omega) (by omega)
          have hnext := nthGood_cons hstep hm
          rw [Nat.sub_add_cancel hd] at hnext
          exact ⟨m + 1, hnext⟩
      | false =>
        have hbad : ¬good e = true := by simp [hgood]
        have hkept : broken e = false := by simpa [unbroken, hgood] using hunbroken
        rw [List.countP_cons_of_neg hbad] at hle
        have hstep : count good broken (pre ++ [e]) = count good broken pre + 0 := by
          rw [count_append_singleton, if_neg hbad, if_neg (by simp [hkept]), Nat.add_zero]
        obtain ⟨m, hm⟩ := ih (pre ++ [e]) d hd hle
        exact ⟨m + 1, nthGood_cons hstep hm⟩
    · rw [List.takeWhile_cons_of_neg hunbroken] at hle
      exact absurd hle (by simp; omega)

end Split

section Equivalence

variable {good broken} {n : Nat} {events : List ε} {k : Nat}

theorem dvd_add_sub_mod (a : Nat) (hn : 0 < n) : n ∣ a + (n - a % n) := by
  have hdiv := Nat.div_add_mod a n
  have hlt := Nat.mod_lt a hn
  refine ⟨a / n + 1, ?_⟩
  rw [Nat.mul_add, Nat.mul_one]
  omega

theorem mod_eq_sub_of_dvd_add {a t : Nat} (ht : 0 < t) (htn : t < n) (h : n ∣ a + t) :
    a % n = n - t := by
  have hmod := Nat.mod_eq_zero_of_dvd h
  rw [Nat.add_mod, Nat.mod_eq_of_lt htn] at hmod
  have hlt := Nat.mod_lt a (Nat.lt_of_le_of_lt (Nat.zero_le t) htn)
  by_cases hsmall : a % n + t < n
  · rw [Nat.mod_eq_of_lt hsmall] at hmod
    omega
  · rw [Nat.mod_eq_sub_mod (by omega), Nat.mod_eq_of_lt (by omega)] at hmod
    omega

-- A streak always fires: one that does not start at a multiple of `n` would
-- have fired before its end.
theorem fires_of_streak (hn : 0 < n)
    (h : StreakAt good n events k (FiresAt good broken n events)) :
    FiresAt good broken n events k := by
  obtain ⟨hlong, hgood, hquiet⟩ := h
  have hcount : ∀ m, m ≤ n → count good broken (events.take (k + 1 - n + m)) =
      count good broken (events.take (k + 1 - n)) + m :=
    fun m hm => count_take_add good broken _ m (fun j hj hjm => hgood j hj (by omega))
  have hend := hcount n (Nat.le_refl n)
  rw [show k + 1 - n + n = k + 1 by omega] at hend
  refine ⟨hgood k (by omega) (Nat.le_refl k), ?_⟩
  rw [hend]
  by_cases hzero : count good broken (events.take (k + 1 - n)) % n = 0
  · exact Nat.dvd_add (Nat.dvd_of_mod_eq_zero hzero) (Nat.dvd_refl n)
  · exfalso
    have hlt := Nat.mod_lt (count good broken (events.take (k + 1 - n))) hn
    have hmid := hcount (n - count good broken (events.take (k + 1 - n)) % n) (by omega)
    apply hquiet (k - count good broken (events.take (k + 1 - n)) % n) (by omega) (by omega)
    refine ⟨hgood _ (by omega) (by omega), ?_⟩
    rw [show k - count good broken (events.take (k + 1 - n)) % n + 1 =
      k + 1 - n + (n - count good broken (events.take (k + 1 - n)) % n) by omega, hmid]
    exact dvd_add_sub_mod _ hn

-- Fewer than `n` good events before one that fires, none fires.
theorem not_fires_before {j : Nat} (hdvd : n ∣ count good broken (events.take (k + 1)))
    (hjk : j < k) (hnear : k < j + n) (hgood : ∀ i, j < i → i ≤ k → GoodAt good events i) :
    ¬FiresAt good broken n events j := by
  rintro ⟨-, hearly⟩
  have hafter := count_take_add good broken (j + 1) (k - j)
    (fun i hi hik => hgood i (by omega) (by omega))
  rw [show j + 1 + (k - j) = k + 1 by omega] at hafter
  rw [hafter] at hdvd
  exact absurd (Nat.le_of_dvd (by omega) ((Nat.dvd_add_right hearly).mp hdvd)) (by omega)

-- Where the good events before a multiple of `n` are fewer than `n`, the event
-- right before them did not break the count: it is an interruption.
theorem interrupted_of_short {start : Nat} (hdvd : n ∣ count good broken (events.take (k + 1)))
    (hstart : start ≤ k) (hshort : k + 1 - start < n)
    (hgood : ∀ j, start ≤ j → j ≤ k → GoodAt good events j)
    (hfirst : ∀ i, i + 1 = start → ¬GoodAt good events i) : Interrupted good broken n events := by
  have hcount := count_take_add good broken start (k + 1 - start)
    (fun j hj hjk => hgood j hj (by omega))
  rw [show start + (k + 1 - start) = k + 1 by omega] at hcount
  rw [hcount] at hdvd
  have hmod := mod_eq_sub_of_dvd_add (by omega) hshort hdvd
  cases start with
  | zero =>
    simp only [List.take_zero] at hmod
    rw [show count good broken [] = 0 from rfl, Nat.zero_mod] at hmod
    omega
  | succ i =>
    have hi : i < events.length := by
      obtain ⟨e, he, -⟩ := hgood k hstart (Nat.le_refl k)
      have hlt := (List.getElem?_eq_some_iff.mp he).1
      omega
    have he : events[i]? = some events[i] := List.getElem?_eq_getElem hi
    have hbad : good events[i] = false := by
      by_contra hgood
      exact hfirst i rfl ⟨_, he, by simpa using hgood⟩
    cases hbroken : broken events[i] with
    | true =>
      rw [count_take_succ_of_broken good broken he hbad hbroken, Nat.zero_mod] at hmod
      omega
    | false =>
      rw [count_take_succ_of_kept good broken he hbad hbroken] at hmod
      refine ⟨i, events[i], he, hbad, hbroken, ?_, ?_⟩
      · intro hdvd
        rw [Nat.mod_eq_zero_of_dvd hdvd] at hmod
        omega
      · rw [hmod]
        refine Nat.le_trans (by omega) (le_countP_takeWhile (k + 1 - (i + 1)) ?_)
        intro j hj
        obtain ⟨e, he, hgood⟩ := hgood (i + 1 + j) (by omega) (by omega)
        exact ⟨e, by rwa [List.getElem?_drop], hgood⟩

-- Without interruptions a count of a multiple of `n` ends a streak.
theorem streak_of_fires (hno : ¬Interrupted good broken n events)
    (h : FiresAt good broken n events k) :
    StreakAt good n events k (FiresAt good broken n events) := by
  obtain ⟨hk, hdvd⟩ := h
  obtain ⟨start, hstart, hgood, hfirst⟩ := exists_streak hk
  by_cases hlong : n ≤ k + 1 - start
  · refine ⟨by omega, fun j hj hjk => hgood j (by omega) hjk, ?_⟩
    intro j hj hjk
    exact not_fires_before hdvd hjk (by omega) (fun i hi hik => hgood i (by omega) hik)
  · exact absurd (interrupted_of_short hdvd hstart (by omega) hgood hfirst) hno

-- An interruption fires without a streak.
theorem not_interrupted (hn : 0 < n)
    (h : ∀ k, FiresAt good broken n events k →
      StreakAt good n events k (FiresAt good broken n events)) :
    ¬Interrupted good broken n events := by
  rintro ⟨j, e, he, hbad, hkept, hnot, hle⟩
  have hlt := Nat.mod_lt (count good broken (events.take j)) hn
  have hsucc := count_take_succ_of_kept good broken he hbad hkept
  have hpos : 0 < count good broken (events.take j) % n :=
    Nat.pos_of_ne_zero fun hzero => hnot (Nat.dvd_of_mod_eq_zero hzero)
  obtain ⟨m, hm, hcount, hmono⟩ := exists_nth_good (events.take (j + 1)) _
    (n - count good broken (events.take j) % n) (by omega) hle
  have hsplit : ∀ i,
      events.take (j + 1) ++ (events.drop (j + 1)).take i = events.take (j + 1 + i) :=
    fun i => List.take_add.symm
  simp only [hsplit] at hcount hmono
  rw [hsucc] at hcount hmono
  have hgood : GoodAt good events (j + 1 + m) := by
    obtain ⟨e', he', hgood⟩ := hm
    exact ⟨e', by rwa [List.getElem?_drop] at he', hgood⟩
  have hfires : FiresAt good broken n events (j + 1 + m) := by
    refine ⟨hgood, ?_⟩
    rw [Nat.add_assoc (j + 1), hcount]
    exact dvd_add_sub_mod _ hn
  obtain ⟨hlong, hstreak, -⟩ := h _ hfires
  -- the streak lies after the interruption and counts more than there is
  have hafter : j + 1 ≤ j + 1 + m + 1 - n := by
    by_contra hbefore
    exact not_goodAt_of he hbad (hstreak j (by omega) (by omega))
  have hcountn := count_take_add good broken (j + 1 + m + 1 - n) n
    (fun i hi hin => hstreak i hi (by omega : i ≤ j + 1 + m))
  rw [show j + 1 + m + 1 - n + n = j + 1 + (m + 1) by omega, hcount] at hcountn
  have hbase := hmono (m + 1 - n) (by omega)
  rw [show j + 1 + (m + 1 - n) = j + 1 + m + 1 - n by omega] at hbase
  omega

theorem fires_iff_streak_iff (hn : 0 < n) :
    (∀ k, FiresAt good broken n events k ↔
        StreakAt good n events k (FiresAt good broken n events)) ↔
      ¬Interrupted good broken n events := by
  constructor
  · exact fun h => not_interrupted hn fun k => (h k).mp
  · exact fun hno k => ⟨streak_of_fires hno, fires_of_streak hn⟩

end Equivalence

end Streak
