import Mathlib.Data.List.Basic
import Mathlib.Data.List.Nodup

-- A list without repetitions and a cursor that goes round it. The cursor is at
-- an item or, as `none`, at the mark between the last item and the first.
@[ext]
structure CursorList (α : Type) where
  items : List α
  cursor : Option α
  nodup : items.Nodup
  cursor_mem : ∀ a, cursor = some a → a ∈ items

namespace CursorList

theorem cursor_mem_nil {α : Type} (a : α) (h : none = some a) : a ∈ ([] : List α) := by cases h

variable {α : Type} [DecidableEq α]

def before (c : α) (items : List α) : List α := items.takeWhile fun a => decide (a ≠ c)

def after (c : α) (items : List α) : List α := (items.dropWhile fun a => decide (a ≠ c)).tail

section Split

variable {items pre post : List α} {c x : α}

theorem takeWhile_ne (hc : c ∉ pre) :
    (pre ++ c :: post).takeWhile (fun a => decide (a ≠ c)) = pre := by
  induction pre with
  | nil => simp
  | cons a pre ih =>
    have hac : a ≠ c := fun heq => hc (by simp [heq])
    have hpre : c ∉ pre := fun hmem => hc (List.mem_cons_of_mem _ hmem)
    simp only [List.cons_append, List.takeWhile_cons, hac, ne_eq, not_false_eq_true, decide_true,
      if_true]
    rw [ih hpre]

theorem dropWhile_ne (hc : c ∉ pre) :
    (pre ++ c :: post).dropWhile (fun a => decide (a ≠ c)) = c :: post := by
  induction pre with
  | nil => simp
  | cons a pre ih =>
    have hac : a ≠ c := fun heq => hc (by simp [heq])
    have hpre : c ∉ pre := fun hmem => hc (List.mem_cons_of_mem _ hmem)
    simp only [List.cons_append, List.dropWhile_cons, hac, ne_eq, not_false_eq_true, decide_true,
      if_true]
    exact ih hpre

@[simp] theorem before_append (hc : c ∉ pre) : before c (pre ++ c :: post) = pre := takeWhile_ne hc

@[simp] theorem after_append (hc : c ∉ pre) : after c (pre ++ c :: post) = post := by
  rw [after, dropWhile_ne hc, List.tail_cons]

theorem exists_split (hc : c ∈ items) : ∃ pre post, items = pre ++ c :: post ∧ c ∉ pre := by
  induction items with
  | nil => cases hc
  | cons a items ih =>
    by_cases heq : a = c
    · exact ⟨[], items, by rw [heq]; rfl, by simp⟩
    · have hmem : c ∈ items := (List.mem_cons.mp hc).resolve_left (Ne.symm heq)
      obtain ⟨pre, post, rfl, hpre⟩ := ih hmem
      refine ⟨a :: pre, post, rfl, ?_⟩
      rintro (_ | ⟨_, hmem⟩)
      · exact heq rfl
      · exact hpre hmem

theorem erase_append (hc : c ∉ pre) : (pre ++ c :: post).erase c = pre ++ post := by
  rw [List.erase_append_right _ hc, List.erase_cons_head]

end Split

-- The item is put in front of the cursor, so that the cursor comes to it last.
def insertBefore (cursor : Option α) (x : α) (items : List α) : List α :=
  match cursor with
  | none => items ++ [x]
  | some c => before c items ++ x :: c :: after c items

theorem insertBefore_perm {cursor : Option α} {items : List α} (x : α)
    (hcursor : ∀ c, cursor = some c → c ∈ items) :
    (insertBefore cursor x items).Perm (x :: items) := by
  cases cursor with
  | none => exact List.perm_append_singleton x items
  | some c =>
    obtain ⟨pre, post, rfl, hpre⟩ := exists_split (hcursor c rfl)
    rw [insertBefore, before_append hpre, after_append hpre]
    exact List.perm_middle

def insertEnd (r : CursorList α) (x : α) (hx : x ∉ r.items) : CursorList α where
  items := insertBefore r.cursor x r.items
  cursor := r.cursor
  nodup := (insertBefore_perm x r.cursor_mem).nodup_iff.mpr (List.nodup_cons.mpr ⟨hx, r.nodup⟩)
  cursor_mem := fun a ha => (insertBefore_perm x r.cursor_mem).mem_iff.mpr
    (List.mem_cons_of_mem _ (r.cursor_mem a ha))

-- The item is put behind those that `p` holds of.
def insertAfter (p : α → Bool) (x : α) (items : List α) : List α :=
  items.takeWhile p ++ x :: items.dropWhile p

omit [DecidableEq α] in
theorem insertAfter_perm (p : α → Bool) (x : α) (items : List α) :
    (insertAfter p x items).Perm (x :: items) := by
  have hsplit : items.takeWhile p ++ items.dropWhile p = items := List.takeWhile_append_dropWhile
  rw [insertAfter]
  refine List.perm_middle.trans ?_
  rw [hsplit]

omit [DecidableEq α] in
-- Behind those that are not above it, an item keeps the list in order.
theorem insertAfter_pairwise {f : α → Nat} {p : α → Bool} {x : α} {items : List α}
    (hp : ∀ a, p a = decide (f a ≤ f x)) (h : items.Pairwise fun a b => f a ≤ f b) :
    (insertAfter p x items).Pairwise fun a b => f a ≤ f b := by
  induction items with
  | nil => simp [insertAfter]
  | cons a items ih =>
    obtain ⟨ha, hitems⟩ := List.pairwise_cons.mp h
    by_cases hle : f a ≤ f x
    · have hcons : insertAfter p x (a :: items) = a :: insertAfter p x items := by
        simp [insertAfter, hp, hle]
      rw [hcons, List.pairwise_cons]
      refine ⟨?_, ih hitems⟩
      intro b hb
      obtain rfl | hb := List.mem_cons.mp ((insertAfter_perm p x items).mem_iff.mp hb)
      · exact hle
      · exact ha b hb
    · have hcons : insertAfter p x (a :: items) = x :: a :: items := by
        simp [insertAfter, hp, hle]
      rw [hcons, List.pairwise_cons]
      refine ⟨?_, h⟩
      intro b hb
      obtain rfl | hb := List.mem_cons.mp hb
      · omega
      · have hab := ha b hb
        omega

def insert (r : CursorList α) (p : α → Bool) (x : α) (hx : x ∉ r.items) : CursorList α where
  items := insertAfter p x r.items
  cursor := r.cursor
  nodup := (insertAfter_perm p x r.items).nodup_iff.mpr (List.nodup_cons.mpr ⟨hx, r.nodup⟩)
  cursor_mem := fun a ha => (insertAfter_perm p x r.items).mem_iff.mpr
    (List.mem_cons_of_mem _ (r.cursor_mem a ha))

def predecessor (x : α) (items : List α) : Option α := (before x items).getLast?

-- A cursor at the item goes back to the one before.
def remove (r : CursorList α) (x : α) : CursorList α where
  items := r.items.erase x
  cursor := if r.cursor = some x then predecessor x r.items else r.cursor
  nodup := r.nodup.erase x
  cursor_mem := by
    intro a ha
    split at ha
    · rename_i hx
      obtain ⟨pre, post, hitems, hpre⟩ := exists_split (r.cursor_mem x hx)
      rw [hitems, predecessor, before_append hpre] at ha
      rw [hitems, erase_append hpre]
      exact List.mem_append_left _ (List.mem_of_getLast? ha)
    · rename_i hne
      have hax : a ≠ x := by
        rintro rfl
        exact hne ha
      exact (List.mem_erase_of_ne hax).mpr (r.cursor_mem a ha)

theorem remove_of_notMem (r : CursorList α) {x : α} (hx : x ∉ r.items) : r.remove x = r := by
  have hne : r.cursor ≠ some x := fun heq => hx (r.cursor_mem x heq)
  ext1
  · exact List.erase_of_not_mem hx
  · simp [remove, hne]

-- The items in the order in which the cursor comes to them.
def order (r : CursorList α) : List α :=
  match r.cursor with
  | none => r.items
  | some c => after c r.items ++ before c r.items ++ [c]

-- The cursor goes on by one item.
def next (r : CursorList α) : Option (α × CursorList α) :=
  match h : r.order with
  | [] => none
  | x :: rest => some (x, {
      items := r.items
      cursor := some x
      nodup := r.nodup
      cursor_mem := by
        intro a ha
        obtain rfl := Option.some.inj ha
        have hmem : x ∈ r.order := by simp [h]
        unfold order at hmem
        split at hmem
        · exact hmem
        · rename_i c hc
          obtain ⟨pre, post, hitems, hpre⟩ := exists_split (r.cursor_mem c hc)
          rw [hitems, after_append hpre, before_append hpre] at hmem
          rw [hitems]
          simp only [List.mem_append, List.mem_singleton] at hmem
          simp only [List.mem_append, List.mem_cons]
          obtain (hx | hx) | hx := hmem
          · exact .inr (.inr hx)
          · exact .inl hx
          · exact .inr (.inl hx) })

section Order

variable {r : CursorList α} {x : α} {rest : List α}

theorem order_of_none (h : r.cursor = none) : r.order = r.items := by
  rw [order, h]

theorem order_of_split {c : α} {pre post : List α} (h : r.cursor = some c)
    (hitems : r.items = pre ++ c :: post) (hpre : c ∉ pre) : r.order = post ++ pre ++ [c] := by
  rw [order, h]
  simp only [hitems, after_append hpre, before_append hpre]

theorem cursor_split {c : α} (h : r.cursor = some c) :
    ∃ pre post, r.items = pre ++ c :: post ∧ c ∉ pre ∧ r.order = post ++ pre ++ [c] := by
  obtain ⟨pre, post, hitems, hpre⟩ := exists_split (r.cursor_mem c h)
  exact ⟨pre, post, hitems, hpre, order_of_split h hitems hpre⟩

theorem order_perm (r : CursorList α) : r.order.Perm r.items := by
  cases h : r.cursor with
  | none => rw [order_of_none h]
  | some c =>
    obtain ⟨pre, post, hitems, -, horder⟩ := cursor_split h
    rw [horder, hitems]
    have hswap : (post ++ pre ++ [c]).Perm (c :: (post ++ pre)) := List.perm_append_singleton _ _
    refine hswap.trans (List.Perm.trans ?_ List.perm_middle.symm)
    exact List.Perm.cons c List.perm_append_comm

theorem order_nodup (r : CursorList α) : r.order.Nodup := r.order_perm.nodup_iff.mpr r.nodup

theorem mem_order : x ∈ r.order ↔ x ∈ r.items := r.order_perm.mem_iff

-- The next item goes to the back.
theorem next_order {r' : CursorList α} (h : r.next = some (x, r')) :
    ∃ rest, r.order = x :: rest ∧ r'.order = rest ++ [x] ∧ r'.items = r.items ∧
      r'.cursor = some x := by
  unfold next at h
  split at h
  · cases h
  · rename_i y rest horder
    simp only [Option.some.injEq, Prod.mk.injEq] at h
    obtain ⟨rfl, rfl⟩ := h
    refine ⟨rest, horder, ?_, rfl, rfl⟩
    have hnodup := r.order_nodup
    rw [horder, List.nodup_cons] at hnodup
    -- where the item stands in the list
    have hplace : ∃ pre post, r.items = pre ++ y :: post ∧ y ∉ pre ∧ rest = post ++ pre := by
      cases hcursor : r.cursor with
      | none =>
        rw [order_of_none hcursor] at horder
        exact ⟨[], rest, horder, by simp, by simp⟩
      | some c =>
        obtain ⟨pre, post, hitems, hpre, hc⟩ := cursor_split hcursor
        rw [hc] at horder
        have hall := r.nodup
        rw [hitems] at hall
        cases post with
        | nil =>
          rw [List.nil_append] at horder
          cases pre with
          | nil =>
            obtain ⟨rfl, rfl⟩ := List.cons.inj horder
            exact ⟨[], [], hitems, by simp, rfl⟩
          | cons p pre =>
            obtain ⟨rfl, rfl⟩ := List.cons.inj horder
            exact ⟨[], pre ++ [c], hitems, by simp, by simp⟩
        | cons q post =>
          obtain ⟨rfl, rfl⟩ := List.cons.inj horder
          refine ⟨pre ++ [c], post, by simp [hitems], ?_, by simp⟩
          intro hmem
          have hsplit : ((pre ++ [c]) ++ q :: post).Nodup := by simpa using hall
          exact (List.nodup_append.mp hsplit).2.2 q hmem q (by simp) rfl
    obtain ⟨pre, post, hitems, hpre, rfl⟩ := hplace
    exact order_of_split rfl hitems hpre

theorem next_eq_none : r.next = none ↔ r.items = [] := by
  constructor
  · intro h
    unfold next at h
    split at h
    · rename_i hnil
      have hperm := r.order_perm
      rw [hnil] at hperm
      exact hperm.nil_eq.symm
    · cases h
  · intro h
    have hperm := r.order_perm
    rw [h] at hperm
    unfold next
    split
    · rfl
    · rename_i y rest horder
      rw [horder] at hperm
      simpa using hperm.length_eq

theorem remove_order (r : CursorList α) (x : α) : (r.remove x).order = r.order.erase x := by
  cases hcursor : r.cursor with
  | none =>
    have hcursor' : (r.remove x).cursor = none := by simp [remove, hcursor]
    rw [order_of_none hcursor', order_of_none hcursor]
    rfl
  | some c =>
    obtain ⟨pre, post, hitems, hpre, horder⟩ := cursor_split hcursor
    have hnodup := r.nodup
    rw [hitems, List.nodup_append, List.nodup_cons] at hnodup
    obtain ⟨hpreNodup, ⟨hcpost, -⟩, hapart⟩ := hnodup
    rw [horder]
    by_cases hxc : c = x
    · -- the cursor goes back by one
      subst hxc
      have hremoved : (r.remove c).items = pre ++ post := by
        rw [remove]
        simp only [hitems, erase_append hpre]
      have hcursor' : (r.remove c).cursor = pre.getLast? := by
        simp only [remove, hcursor, if_true, predecessor, hitems, before_append hpre]
      rw [List.erase_append_right _ (by simp [hpre, hcpost]), List.erase_cons_head]
      obtain rfl | ⟨front, p, rfl⟩ := List.eq_nil_or_concat' pre
      · rw [order_of_none (by simpa using hcursor'), hremoved]
        simp
      · rw [List.nodup_append] at hpreNodup
        rw [order_of_split (by simpa using hcursor') (by simpa using hremoved)
          (fun hmem => hpreNodup.2.2 p hmem p (by simp) rfl)]
        simp
    · have hcursor' : (r.remove x).cursor = some c := by simp [remove, hcursor, hxc]
      have hremoved : (r.remove x).items = (pre ++ c :: post).erase x := by
        rw [remove]
        simp only [hitems]
      by_cases hx : x ∈ pre
      · have hxpost : x ∉ post := fun hmem => hapart x hx x (by simp [hmem]) rfl
        rw [List.erase_append_left _ hx] at hremoved
        rw [order_of_split hcursor' hremoved (fun hmem => hpre (List.mem_of_mem_erase hmem)),
          List.append_assoc, List.append_assoc, List.erase_append_right _ hxpost,
          List.erase_append_left _ hx]
      · rw [List.erase_append_right _ hx, List.erase_cons_tail (by simpa using hxc)] at hremoved
        rw [order_of_split hcursor' hremoved hpre, List.append_assoc, List.append_assoc]
        by_cases hxpost : x ∈ post
        · rw [List.erase_append_left _ hxpost]
        · rw [List.erase_of_not_mem hxpost, List.erase_of_not_mem]
          simp [hx, hxpost, Ne.symm hxc]

-- A new item waits for all others, the one at the cursor excepted.
theorem insertEnd_order (r : CursorList α) (hx : x ∉ r.items) :
    ∃ front back, r.order = front ++ back ∧ (r.insertEnd x hx).order = front ++ x :: back ∧
      back = r.cursor.toList := by
  cases hcursor : r.cursor with
  | none =>
    refine ⟨r.items, [], by simp [order_of_none hcursor], ?_, rfl⟩
    rw [order_of_none (by simpa [insertEnd] using hcursor)]
    simp [insertEnd, insertBefore, hcursor]
  | some c =>
    obtain ⟨pre, post, hitems, hpre, horder⟩ := cursor_split hcursor
    refine ⟨post ++ pre, [c], horder, ?_, rfl⟩
    have hcx : c ≠ x := by
      rintro rfl
      exact hx (r.cursor_mem c hcursor)
    have hinserted : (r.insertEnd x hx).items = (pre ++ [x]) ++ c :: post := by
      simp only [insertEnd, hcursor, insertBefore, hitems, before_append hpre, after_append hpre,
        List.append_assoc, List.singleton_append]
    rw [order_of_split (by simpa [insertEnd] using hcursor) hinserted (by simp [hpre, hcx])]
    simp

-- An item that is put anywhere among the others leaves them in their order.
theorem insert_order (r : CursorList α) (p : α → Bool) (hx : x ∉ r.items) :
    r.order.Sublist (r.insert p x hx).order := by
  have hsplit : r.items = r.items.takeWhile p ++ r.items.dropWhile p :=
    List.takeWhile_append_dropWhile.symm
  have hinserted : (r.insert p x hx).items = r.items.takeWhile p ++ x :: r.items.dropWhile p := rfl
  generalize r.items.takeWhile p = front at hsplit hinserted
  generalize r.items.dropWhile p = back at hsplit hinserted
  cases hcursor : r.cursor with
  | none =>
    rw [order_of_none hcursor, order_of_none (by simpa [insert] using hcursor), hsplit, hinserted]
    exact (List.Sublist.refl front).append (List.sublist_cons_self x back)
  | some c =>
    have hcursor' : (r.insert p x hx).cursor = some c := hcursor
    have hcx : c ≠ x := by
      rintro rfl
      exact hx (r.cursor_mem c hcursor)
    by_cases hfront : c ∈ front
    · obtain ⟨pre, post, rfl, hpre⟩ := exists_split hfront
      rw [List.append_assoc, List.cons_append] at hsplit hinserted
      rw [order_of_split hcursor hsplit hpre, order_of_split hcursor' hinserted hpre]
      simp only [List.append_assoc]
      exact (List.Sublist.refl post).append (List.sublist_cons_self x _)
    · have hmem := r.cursor_mem c hcursor
      rw [hsplit] at hmem
      obtain ⟨pre, post, rfl, hpre⟩ := exists_split ((List.mem_append.mp hmem).resolve_left hfront)
      rw [← List.append_assoc] at hsplit
      rw [← List.cons_append, ← List.append_assoc] at hinserted
      rw [order_of_split hcursor hsplit (by simp [hfront, hpre]),
        order_of_split hcursor' hinserted (by simp [hfront, hpre, hcx])]
      apply List.Sublist.append _ (List.Sublist.refl [c])
      apply (List.Sublist.refl post).append
      exact (List.Sublist.refl front).append (List.sublist_cons_self x pre)

end Order

-- What can happen to a ring whose items take turns.
inductive Turn (α : Type)
  | select (a : α)
  | enter (a : α)
  | leave (a : α)

inductive Runs : CursorList α → List (Turn α) → CursorList α → Prop
  | nil (r : CursorList α) : Runs r [] r
  | select {r r' last : CursorList α} {a : α} {turns : List (Turn α)} (hnext : r.next = some (a, r'))
      (run : Runs r' turns last) : Runs r (.select a :: turns) last
  | enter {r last : CursorList α} {a : α} {turns : List (Turn α)} (ha : a ∉ r.items)
      (run : Runs (r.insertEnd a ha) turns last) : Runs r (.enter a :: turns) last
  | slip {r last : CursorList α} {a : α} {turns : List (Turn α)} (p : α → Bool) (ha : a ∉ r.items)
      (run : Runs (r.insert p a ha) turns last) : Runs r (.enter a :: turns) last
  | leave {r last : CursorList α} {a : α} {turns : List (Turn α)} (run : Runs (r.remove a) turns last) :
      Runs r (.leave a :: turns) last

-- The turns that two items get.
def picks (a b : α) : List (Turn α) → List α
  | [] => []
  | .select x :: turns => if x = a ∨ x = b then x :: picks a b turns else picks a b turns
  | _ :: turns => picks a b turns

section Turns

variable {r last : CursorList α} {a b : α} {turns : List (Turn α)}

theorem picks_comm (a b : α) (turns : List (Turn α)) : picks a b turns = picks b a turns := by
  induction turns with
  | nil => rfl
  | cons turn turns ih =>
    cases turn with
    | select y => simp only [picks, or_comm, ih]
    | enter y => exact ih
    | leave y => exact ih

-- The one that is ahead gets the next turn of the two, and falls behind by it.
theorem Runs.picks_alternate (run : Runs r turns last) (hne : a ≠ b)
    (hahead : [a, b].Sublist r.order) (ha : .leave a ∉ turns) (hb : .leave b ∉ turns) :
    (b :: picks a b turns).IsChain (· ≠ ·) := by
  induction run generalizing a b with
  | nil r => simp [picks]
  | @select r r' last x turns hnext run ih =>
    obtain ⟨rest, horder, horder', -⟩ := next_order hnext
    have hnodup := r.order_nodup
    rw [horder, List.nodup_cons] at hnodup
    rw [horder] at hahead
    simp only [List.mem_cons, not_or] at ha hb
    by_cases hxa : x = a
    · subst hxa
      have hrest : [b].Sublist rest := by simpa using hahead
      have hbehind : [b, x].Sublist r'.order := by
        rw [horder']
        exact hrest.append (List.Sublist.refl [x])
      have hchain := ih hne.symm hbehind hb.2 ha.2
      rw [picks_comm] at hchain
      rw [picks, if_pos (.inl rfl)]
      exact List.isChain_cons_cons.mpr ⟨hne.symm, hchain⟩
    · have hrest : [a, b].Sublist rest := by
        cases hahead with
        | cons _ h => exact h
        | cons_cons _ h => exact absurd rfl hxa
      have hxb : x ≠ b := by
        rintro rfl
        exact hnodup.1 (hrest.subset (by simp))
      rw [picks, if_neg (by simp [hxa, hxb])]
      apply ih hne _ ha.2 hb.2
      rw [horder']
      exact hrest.trans (List.sublist_append_left _ _)
  | @enter r last x turns hx run ih =>
    obtain ⟨front, back, horder, horder', -⟩ := insertEnd_order r hx
    simp only [List.mem_cons, not_or] at ha hb
    rw [picks]
    · apply ih hne _ ha.2 hb.2
      rw [horder']
      rw [horder] at hahead
      exact hahead.trans ((List.Sublist.refl _).append (List.sublist_cons_self _ _))
    · simp
  | @slip r last x turns p hx run ih =>
    simp only [List.mem_cons, not_or] at ha hb
    rw [picks]
    · exact ih hne (hahead.trans (insert_order r p hx)) ha.2 hb.2
    · simp
  | @leave r last x turns run ih =>
    simp only [List.mem_cons, not_or, Turn.leave.injEq] at ha hb
    rw [picks]
    · apply ih hne _ ha.2 hb.2
      rw [remove_order]
      have herase := hahead.erase x
      rwa [List.erase_of_not_mem (by simp [Ne.symm ha.1, Ne.symm hb.1])] at herase
    · simp

-- Of two items of a ring one is ahead of the other.
theorem Runs.picks_isChain (run : Runs r turns last) (hne : a ≠ b) (ha : a ∈ r.items)
    (hb : b ∈ r.items) (haleave : .leave a ∉ turns) (hbleave : .leave b ∉ turns) :
    (picks a b turns).IsChain (· ≠ ·) := by
  obtain ⟨front, back, horder, -⟩ := exists_split (mem_order.mpr ha)
  have hmem := mem_order.mpr hb
  rw [horder, List.mem_append, List.mem_cons] at hmem
  rcases hmem with hfront | rfl | hback
  · have hahead : [b, a].Sublist r.order := by
      rw [horder]
      have hlast : [a].Sublist (a :: back) := by simp
      exact (List.singleton_sublist.mpr hfront).append hlast
    rw [picks_comm]
    exact (run.picks_alternate hne.symm hahead hbleave haleave).of_cons
  · exact absurd rfl hne
  · have hahead : [a, b].Sublist r.order := by
      rw [horder]
      apply List.Sublist.trans _ (List.sublist_append_right front (a :: back))
      exact (List.singleton_sublist.mpr hback).cons_cons a
    exact (run.picks_alternate hne hahead haleave hbleave).of_cons

end Turns

end CursorList
