-- SUMMARY: Rings: a single circular list, with insertion at the tail and removal at the head.
import LynxFly.Base.Links

/-!
# Rings

A ring is a list of nodes linked in both directions through a head that carries no
element. What the links say outside the ring does not matter.
-/

namespace NodeLinks

variable {α : Type}

/-- The nodes `xs` hang on `head`, in this order. -/
structure IsRing (L : NodeLinks α) (head : α) (xs : List α) : Prop where
  path : L.Path head xs head
  nodup : (head :: xs).Nodup

namespace IsRing

variable {L : NodeLinks α} {x head : α} {xs : List α}

/-- The empty ring. -/
theorem nil (hnext : L.next head = head) (hprev : L.prev head = head) : IsRing L head [] :=
  ⟨⟨hnext, hprev⟩, List.nodup_singleton head⟩

theorem next_eq_head_iff (h : IsRing L head xs) : L.next head = head ↔ xs = [] := by
  rw [h.path.next_eq]
  cases xs with
  | nil => exact ⟨fun _ => rfl, fun _ => rfl⟩
  | cons x xs =>
    constructor
    · intro heq
      have hx : x = head := heq
      exact absurd (hx ▸ List.mem_cons_self) (List.nodup_cons.mp h.nodup).1
    · intro hnil
      cases hnil

end IsRing

variable [DecidableEq α] {L : NodeLinks α} {x head : α} {xs : List α}

def setNext (L : NodeLinks α) (a b : α) : NodeLinks α := { L with next := Function.update L.next a b }
def setPrev (L : NodeLinks α) (a b : α) : NodeLinks α := { L with prev := Function.update L.prev a b }

/-- Take the first node off, whose own links stay. -/
def removeHead (L : NodeLinks α) (head : α) : NodeLinks α :=
  (L.setNext head (L.next (L.next head))).setPrev (L.next (L.next head)) head

theorem IsRing.insertBefore (h : IsRing L head xs) (hx : x ∉ head :: xs) :
    IsRing (L.insertBefore head x) head (xs ++ [x]) := by
  obtain ⟨hhead, hnodup⟩ := List.nodup_cons.mp h.nodup
  refine ⟨h.path.insertBefore hx (fun heq => hx (heq ▸ List.mem_cons_self)) hhead hhead hnodup, ?_⟩
  rw [← List.cons_append, List.nodup_append]
  refine ⟨h.nodup, List.nodup_singleton x, fun y hy z hz => ?_⟩
  rw [List.mem_singleton] at hz
  subst z
  exact fun heq => hx (heq ▸ hy)

theorem IsRing.removeHead (h : IsRing L head (x :: xs)) : IsRing (L.removeHead head) head xs := by
  obtain ⟨hpath, hnodup⟩ := h
  obtain ⟨hhead, hxs⟩ := List.nodup_cons.mp hnodup
  obtain ⟨hx, hnodup'⟩ := List.nodup_cons.mp hxs
  have hheadxs : head ∉ xs := fun hm => hhead (List.mem_cons_of_mem x hm)
  have hxhead : x ≠ head := fun heq => hhead (heq ▸ List.mem_cons_self)
  have hnext : L.next head = x := hpath.1
  have hprev : L.prev x = head := hpath.2.1
  have hremoved : (L.remove x).Path head xs head := by
    have hfirst : L.Path head ([] ++ x :: xs) head := hpath
    refine hfirst.remove ?_ ?_ hheadxs hheadxs hnodup'
    · exact fun hm => hxhead (List.mem_singleton.mp hm)
    · rw [List.mem_append, List.mem_singleton]
      exact fun hm => hm.elim hx hxhead
  -- the two agree but for the links of `x`
  refine ⟨hremoved.congr (fun y hy => ?_) fun y hy => ?_, List.nodup_cons.mpr ⟨hheadxs, hnodup'⟩⟩
  · have hyx : y ≠ x := by
      rintro rfl
      exact (List.mem_cons.mp hy).elim hxhead hx
    rw [next_remove, if_neg hyx, hprev, ← hnext]
    exact Function.update_apply ..
  · have hyx : y ≠ x := by
      rintro rfl
      exact (List.mem_append.mp hy).elim hx fun hm => hxhead (List.mem_singleton.mp hm)
    rw [prev_remove, if_neg hyx, hprev, ← hnext]
    exact Function.update_apply ..

end NodeLinks
