-- SUMMARY: Circular doubly linked lists whose nodes live in their owners, several of them in one memory.
import Mathlib.Data.List.Nodup

/-!
# Linked lists

A node has a link forward and one back, and belongs to at most one list. Every list has a head,
which is a node itself, so that nodes come and go without a case for the empty list.
-/

/-- The links of all nodes. -/
structure NodeLinks (α : Type) where
  next : α → α
  prev : α → α

namespace NodeLinks

variable {α ι : Type}

/-! ## Paths -/

/-- From `a` over the nodes to `b`, forward and back. -/
def Path (L : NodeLinks α) : α → List α → α → Prop
  | a, [], b => L.next a = b ∧ L.prev b = a
  | a, x :: xs, b => L.next a = x ∧ L.prev x = a ∧ L.Path x xs b

section Paths

variable {L L' : NodeLinks α} {a b x y : α} {xs ys : List α}

theorem path_append : L.Path a (xs ++ y :: ys) b ↔ L.Path a xs y ∧ L.Path y ys b := by
  induction xs generalizing a with
  | nil => simp [Path, and_assoc]
  | cons x xs ih => simp [Path, ih, and_assoc]

theorem Path.congr (h : L.Path a xs b) (hnext : ∀ x ∈ a :: xs, L'.next x = L.next x)
    (hprev : ∀ x ∈ xs ++ [b], L'.prev x = L.prev x) : L'.Path a xs b := by
  induction xs generalizing a with
  | nil => exact ⟨(hnext a (by simp)).trans h.1, (hprev b (by simp)).trans h.2⟩
  | cons x xs ih =>
    refine ⟨(hnext a (by simp)).trans h.1, (hprev x (by simp)).trans h.2.1, ih h.2.2 ?_ ?_⟩
    · exact fun y hy => hnext y (List.mem_cons_of_mem a hy)
    · exact fun y hy => hprev y (List.mem_cons_of_mem x hy)

theorem Path.prev_mem (h : L.Path a xs b) : L.prev b ∈ a :: xs := by
  induction xs generalizing a with
  | nil => simp [h.2]
  | cons x xs ih => exact List.mem_cons_of_mem a (ih h.2.2)

theorem Path.next_eq (h : L.Path a xs b) : L.next a = xs.head?.getD b := by
  cases xs with
  | nil => exact h.1
  | cons x xs => exact h.1

theorem Path.next_mem (h : L.Path a xs b) : L.next a ∈ xs ++ [b] := by
  cases xs with
  | nil => simp [h.1]
  | cons x xs => simp [h.1]

end Paths

variable [DecidableEq α]

/-! ## The operations -/

/-- The node points at itself. -/
def init (L : NodeLinks α) (n : α) : NodeLinks α :=
  { next := Function.update L.next n n, prev := Function.update L.prev n n }

/-- `n` is put in front of `l`, which may be a head. -/
def insertBefore (L : NodeLinks α) (l n : α) : NodeLinks α :=
  let L := { L with next := Function.update L.next (L.prev l) n }
  let L := { L with prev := Function.update L.prev n (L.prev l) }
  let L := { L with prev := Function.update L.prev l n }
  { L with next := Function.update L.next n l }

/-- `n` is taken out of the list it is in. -/
def remove (L : NodeLinks α) (n : α) : NodeLinks α :=
  let L := { L with prev := Function.update L.prev (L.next n) (L.prev n) }
  let L := { L with next := Function.update L.next (L.prev n) (L.next n) }
  L.init n

def isEmpty (L : NodeLinks α) (l : α) : Bool := L.next l = l

/-- The first node from `n` on that has the property, or `l` itself where none has. -/
def seek (L : NodeLinks α) (l : α) (p : α → Bool) : ℕ → α → Option α
  | 0, _ => none
  | fuel + 1, n => if n = l ∨ p n then some n else L.seek l p fuel (L.next n)

/-! ## What they write -/

section Writes

variable {L : NodeLinks α} {l n x : α}

theorem next_insertBefore :
    (L.insertBefore l n).next x = if x = n then l else if x = L.prev l then n else L.next x := by
  simp only [insertBefore, Function.update_apply]

theorem prev_insertBefore :
    (L.insertBefore l n).prev x = if x = l then n else if x = n then L.prev l else L.prev x := by
  simp only [insertBefore, Function.update_apply]

theorem next_remove :
    (L.remove n).next x = if x = n then n else if x = L.prev n then L.next n else L.next x := by
  simp only [remove, init, Function.update_apply]
  split
  · rfl
  · split <;> rfl

theorem prev_remove :
    (L.remove n).prev x = if x = n then n else if x = L.next n then L.prev n else L.prev x := by
  simp only [remove, init, Function.update_apply]

end Writes

/-! ## Paths after them -/

section Moves

variable {L : NodeLinks α} {a b n : α} {xs ys : List α}

/-- Taking out a node on the way. -/
theorem Path.remove (h : L.Path a (xs ++ n :: ys) b) (hn : n ∉ a :: xs) (hny : n ∉ ys ++ [b])
    (ha : a ∉ xs ++ ys) (hb : b ∉ xs ++ ys) (hnodup : (xs ++ ys).Nodup) :
    (L.remove n).Path a (xs ++ ys) b := by
  induction xs generalizing a with
  | nil =>
    obtain ⟨hna, hpn, h⟩ := h
    have han : a ≠ n := fun heq => hn (by simp [heq])
    cases ys with
    | nil =>
      have hbn : b ≠ n := fun heq => hny (by simp [heq])
      refine ⟨?_, ?_⟩
      · rw [next_remove, if_neg han, if_pos hpn.symm, h.1]
      · rw [prev_remove, if_neg hbn, if_pos h.1.symm, hpn]
    | cons y ys =>
      obtain ⟨hny', hpy, h⟩ := h
      have hyn : y ≠ n := fun heq => hny (by simp [heq])
      refine ⟨?_, ?_, h.congr (fun z hz => ?_) fun z hz => ?_⟩
      · rw [next_remove, if_neg han, if_pos hpn.symm, hny']
      · rw [prev_remove, if_neg hyn, if_pos hny'.symm, hpn]
      · rw [next_remove, if_neg, if_neg]
        · rintro rfl
          rw [hpn] at hz
          exact ha (by simpa using hz)
        · rintro rfl
          exact hny (List.mem_append_left _ hz)
      · rw [prev_remove, if_neg, if_neg]
        · rintro rfl
          rw [hny'] at hz
          rcases List.mem_append.mp hz with hz | hz
          · exact (List.nodup_cons.mp hnodup).1 hz
          · exact hb (by simp [← List.mem_singleton.mp hz])
        · rintro rfl
          refine hny (List.mem_append.mpr ?_)
          exact (List.mem_append.mp hz).imp (List.mem_cons_of_mem y) id
  | cons c xs ih =>
    obtain ⟨hnext, hprev, h⟩ := h
    rw [List.cons_append] at ha hb hnodup
    have hmid := (path_append.mp h).1.prev_mem
    have hout := (path_append.mp h).2.next_mem
    refine ⟨?_, ?_, ih h (fun hm => hn (List.mem_cons_of_mem a hm)) (List.nodup_cons.mp hnodup).1
      (fun hm => hb (List.mem_cons_of_mem c hm)) (List.nodup_cons.mp hnodup).2⟩
    · rw [next_remove, if_neg, if_neg, hnext]
      · rintro rfl
        exact ha (by
          rcases List.mem_cons.mp hmid with heq | hm
          · simp [heq]
          · simp [hm])
      · rintro rfl
        exact hn List.mem_cons_self
    · rw [prev_remove, if_neg, if_neg, hprev]
      · rintro rfl
        rcases List.mem_append.mp hout with hm | hm
        · exact (List.nodup_cons.mp hnodup).1 (List.mem_append_right xs hm)
        · exact hb (by simp [← List.mem_singleton.mp hm])
      · rintro rfl
        exact hn (by simp)

/-- Putting a node at the end of the way. -/
theorem Path.insertBefore (h : L.Path a xs b) (hn : n ∉ a :: xs) (hnb : n ≠ b) (ha : a ∉ xs)
    (hb : b ∉ xs) (hnodup : xs.Nodup) : (L.insertBefore b n).Path a (xs ++ [n]) b := by
  induction xs generalizing a with
  | nil =>
    have han : a ≠ n := fun heq => hn (by simp [heq])
    refine ⟨?_, ?_, ?_, ?_⟩
    · rw [next_insertBefore, if_neg han, if_pos h.2.symm]
    · rw [prev_insertBefore, if_neg hnb, if_pos rfl, h.2]
    · rw [next_insertBefore, if_pos rfl]
    · rw [prev_insertBefore, if_pos rfl]
  | cons c xs ih =>
    obtain ⟨hnext, hprev, h⟩ := h
    refine ⟨?_, ?_, ih h (fun hm => hn (List.mem_cons_of_mem a hm)) (List.nodup_cons.mp hnodup).1
      (fun hm => hb (List.mem_cons_of_mem c hm)) (List.nodup_cons.mp hnodup).2⟩
    · rw [next_insertBefore, if_neg, if_neg, hnext]
      · rintro rfl
        exact ha h.prev_mem
      · rintro rfl
        exact hn List.mem_cons_self
    · rw [prev_insertBefore, if_neg, if_neg, hprev]
      · rintro rfl
        exact hn (by simp)
      · rintro rfl
        exact hb List.mem_cons_self

end Moves

/-! ## Several lists -/

/-- The list that starts at each head; a node is in one list at most, and alone otherwise. -/
structure Lists (L : NodeLinks α) (head : ι → α) (q : ι → List α) : Prop where
  path : ∀ i, L.Path (head i) (q i) (head i)
  nodup : ∀ i, (q i).Nodup
  unique : ∀ i j x, x ∈ q i → x ∈ q j → i = j
  head_not_mem : ∀ i j, head i ∉ q j
  head_inj : ∀ i j, head i = head j → i = j
  alone : ∀ x, (∀ i, x ≠ head i) → (∀ i, x ∉ q i) → L.next x = x ∧ L.prev x = x

namespace Lists

section Reading

omit [DecidableEq α]

variable {L : NodeLinks α} {head : ι → α} {q : ι → List α} {i : ι} {x : α} {xs ys : List α}

theorem next_head (h : Lists L head q) : L.next (head i) = ((q i).head?).getD (head i) :=
  (h.path i).next_eq

/-- A node points at itself on both sides of a list it is all of. -/
theorem next_eq_prev_iff (h : Lists L head q) (hx : x ∈ q i) :
    L.next x = L.prev x ↔ q i = [x] := by
  obtain ⟨xs, ys, hq⟩ := List.append_of_mem hx
  have hp := h.path i
  rw [hq, path_append] at hp
  have hnodup := h.nodup i
  have hhead := h.head_not_mem i i
  rw [hq] at hnodup hhead
  constructor
  · intro heq
    have hprev := hp.1.prev_mem
    have hnext := hp.2.next_mem
    rw [heq] at hnext
    have hys : L.prev x ∉ ys ∨ L.prev x ∉ head i :: xs := by
      by_contra hboth
      obtain ⟨h1, h2⟩ := not_or.mp hboth
      have h1 := not_not.mp h1
      rcases List.mem_cons.mp (not_not.mp h2) with h2 | h2
      · exact hhead (by simp [← h2, h1])
      · exact (List.nodup_append.mp hnodup).2.2 _ h2 _ (List.mem_cons_of_mem x h1) rfl
    have hlast : L.prev x = head i := by
      rcases List.mem_append.mp hnext with hm | hm
      · exact absurd hprev (hys.resolve_left (not_not.mpr hm))
      · exact List.mem_singleton.mp hm
    have hxs : xs = [] := by
      cases xs with
      | nil => rfl
      | cons c cs =>
        have hm := hp.1.2.2.prev_mem
        rw [hlast] at hm
        exact absurd (List.mem_append_left (x :: ys) hm) hhead
    have hys : ys = [] := by
      cases ys with
      | nil => rfl
      | cons c cs =>
        have hc : L.next x = c := hp.2.1
        rw [heq, hlast] at hc
        exact absurd (by simp [hc]) hhead
    rw [hq, hxs, hys]
    rfl
  · intro hone
    have hp := h.path i
    rw [hone] at hp
    rw [hp.2.2.1, hp.2.1]

end Reading

section Writing

variable {L : NodeLinks α} {head : ι → α} {q : ι → List α} {i : ι} {l x : α} {xs ys : List α}

theorem isEmpty_iff (h : Lists L head q) : L.isEmpty (head i) ↔ q i = [] := by
  rw [isEmpty, decide_eq_true_iff, h.next_head]
  cases hq : q i with
  | nil => simp
  | cons x xs =>
    have hne : x ≠ head i := fun heq => h.head_not_mem i i (by simp [hq, ← heq])
    simp [hne]

omit [DecidableEq α] in
/-- The links of one list are not those of another. -/
theorem ne_of_mem (h : Lists L head q) {j : ι} (hij : i ≠ j) {y : α} (hx : x ∈ head i :: q i)
    (hy : y ∈ head j :: q j) : x ≠ y := by
  rintro rfl
  rcases List.mem_cons.mp hx with hx | hx <;> rcases List.mem_cons.mp hy with hy | hy
  · exact hij (h.head_inj i j (hx.symm.trans hy))
  · exact h.head_not_mem i j (hx ▸ hy)
  · exact h.head_not_mem j i (hy ▸ hx)
  · exact hij (h.unique i j x hx hy)

variable [DecidableEq ι]

/-- Taking a node out, wherever it is. -/
theorem remove (h : Lists L head q) (hx : ∀ i, x ≠ head i) :
    Lists (L.remove x) head fun i => (q i).erase x := by
  by_cases hmem : ∃ i, x ∈ q i
  · obtain ⟨i, hi⟩ := hmem
    obtain ⟨xs, ys, hq⟩ := List.append_of_mem hi
    have hpath := h.path i
    have hnodup := h.nodup i
    have hhead := h.head_not_mem i i
    rw [hq] at hpath hnodup hhead
    have hxs : x ∉ xs := fun hm =>
      (List.nodup_append.mp hnodup).2.2 x hm x List.mem_cons_self rfl
    have hys : x ∉ ys := (List.nodup_cons.mp (List.nodup_append.mp hnodup).2.1).1
    have herase : (q i).erase x = xs ++ ys := by
      rw [hq, List.erase_append_right _ hxs, List.erase_cons_head]
    have hother : ∀ j, j ≠ i → (q j).erase x = q j := fun j hj =>
      List.erase_of_not_mem fun hm => hj (h.unique j i x hm hi)
    have hp := (path_append.mp hpath).1.prev_mem
    have hn := (path_append.mp hpath).2.next_mem
    have hpmem : L.prev x ∈ head i :: q i := by
      rw [hq]
      exact List.mem_cons.mpr ((List.mem_cons.mp hp).imp id (List.mem_append_left _))
    have hnmem : L.next x ∈ head i :: q i := by
      rw [hq]
      rcases List.mem_append.mp hn with hm | hm
      · exact List.mem_cons_of_mem _ (List.mem_append_right _ (List.mem_cons_of_mem x hm))
      · exact List.mem_singleton.mp hm ▸ List.mem_cons_self
    have hxmem : x ∈ head i :: q i := List.mem_cons_of_mem _ hi
    have hkeep : ∀ y, y ∉ head i :: q i →
        (L.remove x).next y = L.next y ∧ (L.remove x).prev y = L.prev y := by
      intro y hy
      have hne : ∀ z ∈ head i :: q i, y ≠ z := fun z hz e => hy (by rwa [e])
      rw [next_remove, prev_remove, if_neg (hne x hxmem), if_neg (hne _ hpmem),
        if_neg (hne x hxmem), if_neg (hne _ hnmem)]
      exact ⟨rfl, rfl⟩
    refine ⟨fun j => ?_, fun j => (h.nodup j).erase x, fun j k y hj hk =>
      h.unique j k y (List.mem_of_mem_erase hj) (List.mem_of_mem_erase hk),
      fun j k hm => h.head_not_mem j k (List.mem_of_mem_erase hm), h.head_inj, fun y hy hnot => ?_⟩
    · by_cases hji : j = i
      · subst hji
        show (L.remove x).Path (head j) ((q j).erase x) (head j)
        rw [herase]
        refine hpath.remove ?_ ?_ ?_ ?_ ?_
        · simp [hxs, hx j]
        · simp [hys, hx j]
        · exact fun hm => hhead (by
            rcases List.mem_append.mp hm with hm | hm <;> simp [hm])
        · exact fun hm => hhead (by
            rcases List.mem_append.mp hm with hm | hm <;> simp [hm])
        · exact (h.nodup j).erase x |> fun hnd => herase ▸ hnd
      · show (L.remove x).Path (head j) ((q j).erase x) (head j)
        rw [hother j hji]
        have hout : ∀ y ∈ head j :: q j, y ∉ head i :: q i := fun y hy hm =>
          h.ne_of_mem hji hy hm rfl
        refine (h.path j).congr (fun y hy => (hkeep y (hout y hy)).1) fun y hy =>
          (hkeep y (hout y ?_)).2
        rcases List.mem_append.mp hy with hm | hm
        · exact List.mem_cons_of_mem _ hm
        · exact List.mem_singleton.mp hm ▸ List.mem_cons_self
    · by_cases hyx : y = x
      · rw [hyx, next_remove, prev_remove, if_pos rfl, if_pos rfl]
        exact ⟨rfl, rfl⟩
      · have hnot' : ∀ j, y ∉ q j := fun j hm => hnot j ((List.mem_erase_of_ne hyx).mpr hm)
        have hyi : y ∉ head i :: q i := fun hm =>
          (List.mem_cons.mp hm).elim (hy i) (hnot' i)
        rw [(hkeep y hyi).1, (hkeep y hyi).2]
        exact h.alone y hy hnot'
  · have hnot : ∀ i, x ∉ q i := fun i hi => hmem ⟨i, hi⟩
    obtain ⟨hnext, hprev⟩ := h.alone x hx hnot
    have hsame : L.remove x = L := by
      have h1 : ∀ y, (L.remove x).next y = L.next y := fun y => by
        rw [next_remove, hprev, hnext]
        split
        · rename_i he
          rw [he, hnext]
        · rfl
      have h2 : ∀ y, (L.remove x).prev y = L.prev y := fun y => by
        rw [prev_remove, hprev, hnext]
        split
        · rename_i he
          rw [he, hprev]
        · rfl
      cases hL : L.remove x
      cases L
      rw [hL] at h1 h2
      rw [NodeLinks.mk.injEq]
      exact ⟨funext h1, funext h2⟩
    have hq : (fun i => (q i).erase x) = q := funext fun i => List.erase_of_not_mem (hnot i)
    rw [hsame, hq]
    exact h

/-- Putting a node that is alone into a list, in front of what comes after `xs`. -/
theorem insertBefore (h : Lists L head q) (hx : ∀ i, x ≠ head i) (hnot : ∀ i, x ∉ q i)
    (hq : q i = xs ++ ys) (hl : l = ys.head?.getD (head i)) :
    Lists (L.insertBefore l x) head (Function.update q i (xs ++ x :: ys)) := by
  have hpath := h.path i
  have hnodup := h.nodup i
  have hhead := h.head_not_mem i i
  have hxq := hnot i
  rw [hq] at hpath hnodup hhead hxq
  have hlmem : l ∈ head i :: q i := by
    rw [hq, hl]
    cases ys with
    | nil => exact List.mem_cons_self
    | cons y ys => simp
  have hfirst : L.Path (head i) xs l := by
    cases ys with
    | nil =>
      rw [hl]
      rw [List.append_nil] at hpath
      exact hpath
    | cons y ys =>
      rw [hl]
      exact (path_append.mp hpath).1
  have hpmem : L.prev l ∈ head i :: xs := hfirst.prev_mem
  have hpmem' : L.prev l ∈ head i :: q i := by
    rw [hq]
    exact List.mem_cons.mpr ((List.mem_cons.mp hpmem).imp id (List.mem_append_left _))
  have hkeep : ∀ y, y ∉ head i :: q i → y ≠ x → (L.insertBefore l x).next y = L.next y ∧
      (L.insertBefore l x).prev y = L.prev y := by
    intro y hy hyx
    have hne : ∀ z ∈ head i :: q i, y ≠ z := fun z hz e => hy (by rwa [e])
    rw [next_insertBefore, prev_insertBefore, if_neg hyx, if_neg (hne _ hpmem'),
      if_neg (hne l hlmem), if_neg hyx]
    exact ⟨rfl, rfl⟩
  have hpath' : (L.insertBefore l x).Path (head i) (xs ++ x :: ys) (head i) := by
    have hlxs : l ∉ xs := by
      cases ys with
      | nil =>
        rw [hl]
        exact fun hm => hhead (List.mem_append_left _ hm)
      | cons y ys =>
        rw [hl]
        exact fun hm => (List.nodup_append.mp hnodup).2.2 _ hm _ List.mem_cons_self rfl
    have hxl : x ≠ l := by
      rintro rfl
      rcases List.mem_cons.mp hlmem with hm | hm
      · exact hx i hm
      · exact hnot i hm
    have hstart := hfirst.insertBefore (n := x)
      (by
        rintro (_ | ⟨_, hm⟩)
        · exact hx i rfl
        · exact hxq (List.mem_append_left _ hm))
      hxl (fun hm => hhead (List.mem_append_left _ hm)) hlxs (List.nodup_append.mp hnodup).1
    cases ys with
    | nil =>
      rw [hl] at hstart ⊢
      exact hstart
    | cons y ys =>
      have hly : l = y := hl
      subst hly
      have hend := (path_append.mp hpath).2
      obtain ⟨hp1, hp2⟩ := path_append.mp hstart
      rw [path_append]
      refine ⟨hp1, hp2.1, hp2.2, hend.congr (fun z hz => ?_) fun z hz => ?_⟩
      · rw [next_insertBefore, if_neg, if_neg]
        · rintro rfl
          rcases List.mem_cons.mp hpmem with hm | hm
          · exact hhead (List.mem_append_right _ (hm ▸ hz))
          · exact (List.nodup_append.mp hnodup).2.2 _ hm _ hz rfl
        · rintro rfl
          exact hxq (List.mem_append_right _ hz)
      · rw [prev_insertBefore, if_neg, if_neg]
        · rintro rfl
          rcases List.mem_append.mp hz with hm | hm
          · exact hxq (List.mem_append_right _ (List.mem_cons_of_mem _ hm))
          · exact hx i (List.mem_singleton.mp hm)
        · rintro rfl
          rcases List.mem_append.mp hz with hm | hm
          · exact (List.nodup_cons.mp (List.nodup_append.mp hnodup).2.1).1 hm
          · exact hhead (List.mem_append_right _ (by simp [List.mem_singleton.mp hm]))
  have hmem : ∀ j y, y ∈ Function.update q i (xs ++ x :: ys) j ↔ y ∈ q j ∨ j = i ∧ y = x := by
    intro j y
    by_cases hji : j = i
    · subst hji
      rw [Function.update_self, hq]
      simp only [List.mem_append, List.mem_cons, true_and]
      tauto
    · rw [Function.update_of_ne hji]
      simp [hji]
  refine ⟨fun j => ?_, fun j => ?_, fun j k y hj hk => ?_, fun j k hm => ?_, h.head_inj,
    fun y hy hn => ?_⟩
  · by_cases hji : j = i
    · subst hji
      rw [Function.update_self]
      exact hpath'
    · rw [Function.update_of_ne hji]
      have hout : ∀ y ∈ head j :: q j, y ∉ head i :: q i ∧ y ≠ x := by
        refine fun y hy => ⟨fun hm => h.ne_of_mem hji hy hm rfl, ?_⟩
        rintro rfl
        exact (List.mem_cons.mp hy).elim (hx j) (hnot j)
      refine (h.path j).congr (fun y hy => (hkeep y (hout y hy).1 (hout y hy).2).1) fun y hy => ?_
      have hy' : y ∈ head j :: q j := by
        rcases List.mem_append.mp hy with hm | hm
        · exact List.mem_cons_of_mem _ hm
        · exact List.mem_singleton.mp hm ▸ List.mem_cons_self
      exact (hkeep y (hout y hy').1 (hout y hy').2).2
  · by_cases hji : j = i
    · subst hji
      rw [Function.update_self]
      exact List.nodup_middle.mpr (List.nodup_cons.mpr ⟨hxq, hnodup⟩)
    · rw [Function.update_of_ne hji]
      exact h.nodup j
  · rcases (hmem j y).mp hj with hj | ⟨hj, hyx⟩ <;>
      rcases (hmem k y).mp hk with hk | ⟨hk, hyx'⟩
    · exact h.unique j k y hj hk
    · exact absurd (hyx' ▸ hj) (hnot j)
    · exact absurd (hyx ▸ hk) (hnot k)
    · rw [hj, hk]
  · rcases (hmem k (head j)).mp hm with hm | ⟨-, hm⟩
    · exact h.head_not_mem j k hm
    · exact hx j hm.symm
  · have hyx : y ≠ x := by
      rintro rfl
      exact hn i ((hmem i y).mpr (.inr ⟨rfl, rfl⟩))
    have hnq : ∀ j, y ∉ q j := fun j hm => hn j ((hmem j y).mpr (.inl hm))
    have hyi : y ∉ head i :: q i := fun hm => (List.mem_cons.mp hm).elim (hy i) (hnq i)
    rw [(hkeep y hyi hyx).1, (hkeep y hyi hyx).2]
    exact h.alone y hy hnq

end Writing

/-! ## Searching -/

section Seek

variable {L : NodeLinks α} {a b : α} {p : α → Bool} {fuel : ℕ} {xs : List α}

theorem seek_path (h : L.Path a xs b) (hb : b ∉ xs) (hfuel : xs.length < fuel) :
    L.seek b p fuel (L.next a) = some ((xs.find? p).getD b) := by
  induction xs generalizing a fuel with
  | nil =>
    obtain ⟨fuel, rfl⟩ := Nat.exists_eq_succ_of_ne_zero (Nat.ne_of_gt hfuel)
    rw [h.1, seek, if_pos (.inl rfl)]
    rfl
  | cons x xs ih =>
    obtain ⟨fuel, rfl⟩ := Nat.exists_eq_succ_of_ne_zero (Nat.ne_of_gt (Nat.zero_lt_of_lt hfuel))
    have hxb : x ≠ b := fun e => hb (by simp [e])
    rw [h.1, seek, List.find?_cons]
    cases hp : p x with
    | true => rw [if_pos (.inr rfl)]; rfl
    | false =>
      rw [if_neg (by simp [hxb]), ih h.2.2 (fun hm => hb (List.mem_cons_of_mem x hm))
        (Nat.lt_of_succ_lt_succ hfuel)]

end Seek

end Lists

end NodeLinks
