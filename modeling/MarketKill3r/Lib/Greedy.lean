import Mathlib.Data.List.Induction
import Mathlib.Data.List.Sort
import Mathlib.Logic.ExistsUnique

/-!
# Greedy grouping of a sorted list

A pass over a sorted list opens a group at each item that is `far` from the last anchor, the item
that opened the last group. `far` has a direction: what is far from an anchor stays far further up.
Below the anchor it is not restricted, so an item may also be near the anchor of a later group.

* `openIf_covers`, `anchors_covers`: the invariant, for a step and for the pass.
* `Covers.existsUnique`: an item has one anchor that is not above it and not far.
* `Covers.existsUnique_iff`: it has one that is not far at all exactly when the anchors above it are
  far.
-/

namespace Greedy

variable {α : Type}

section Pass

variable (far : α → α → Prop) [DecidableRel far]

/-- An item that is far from the last anchor, or the first one, is an anchor. -/
def openIf (anchors : List α) (x : α) : List α :=
  match anchors.getLast? with
  | none => anchors ++ [x]
  | some a => if far a x then anchors ++ [x] else anchors

/-- The anchors of the pass over `xs`. -/
def anchors (xs : List α) : List α := xs.foldl (openIf far) []

variable {far}

theorem openIf_concat (as : List α) (a x : α) :
    openIf far (as ++ [a]) x = if far a x then as ++ [a] ++ [x] else as ++ [a] := by
  rw [openIf, List.getLast?_concat]

theorem anchors_concat (xs : List α) (x : α) :
    anchors far (xs ++ [x]) = openIf far (anchors far xs) x := by
  rw [anchors, List.foldl_append]
  rfl

end Pass

/-! ## What the pass keeps -/

section Order

variable [LinearOrder α]

/-- No item is far from itself, and what is far from an anchor stays far further up. -/
structure Upward (far : α → α → Prop) : Prop where
  irrefl : ∀ a, ¬ far a a
  mono : ∀ {a b c}, a ≤ b → b ≤ c → far a b → far a c

/-- The anchors after the items `xs` have been read. -/
structure Covers (far : α → α → Prop) (xs anchors : List α) : Prop where
  mem : ∀ a ∈ anchors, a ∈ xs
  apart : anchors.Pairwise fun a b => a < b ∧ far a b
  covered : ∀ x ∈ xs, ∃ a ∈ anchors, a ≤ x ∧ ¬ far a x

variable {far : α → α → Prop} {xs as : List α} {x : α}

/-- A new anchor covers itself, the others what they covered before. -/
theorem Covers.concat (hfar : Upward far) (h : Covers far xs as) (hnew : ∀ a ∈ as, a < x ∧ far a x) :
    Covers far (xs ++ [x]) (as ++ [x]) where
  mem a ha := by
    rcases List.mem_append.mp ha with ha | ha
    · exact List.mem_append_left _ (h.mem a ha)
    · exact List.mem_append_right _ ha
  apart := by
    rw [List.pairwise_append]
    refine ⟨h.apart, List.pairwise_singleton _ _, fun a ha b hb => ?_⟩
    rw [List.mem_singleton.mp hb]
    exact hnew a ha
  covered y hy := by
    rcases List.mem_append.mp hy with hy | hy
    · obtain ⟨a, ha, hle, hnear⟩ := h.covered y hy
      exact ⟨a, List.mem_append_left _ ha, hle, hnear⟩
    · rw [List.mem_singleton.mp hy]
      exact ⟨x, List.mem_append_right _ (List.mem_singleton_self x), le_rfl, hfar.irrefl x⟩

/-- An item near an anchor below it is covered already. -/
theorem Covers.skip (h : Covers far xs as) {a : α} (ha : a ∈ as) (hax : a ≤ x) (hnear : ¬ far a x) :
    Covers far (xs ++ [x]) as where
  mem b hb := List.mem_append_left _ (h.mem b hb)
  apart := h.apart
  covered y hy := by
    rcases List.mem_append.mp hy with hy | hy
    · exact h.covered y hy
    · rw [List.mem_singleton.mp hy]
      exact ⟨a, ha, hax, hnear⟩

/-- The next item of a sorted list keeps the invariant. -/
theorem openIf_covers [DecidableRel far] (hfar : Upward far) (h : Covers far xs as)
    (hx : ∀ y ∈ xs, y ≤ x) : Covers far (xs ++ [x]) (openIf far as x) := by
  rcases List.eq_nil_or_concat as with rfl | ⟨as, a, rfl⟩
  · exact h.concat hfar fun a ha => nomatch ha
  · rw [List.concat_eq_append] at *
    rw [openIf_concat]
    have hlast : a ∈ as ++ [a] := List.mem_append_right _ (List.mem_singleton_self a)
    have hax : a ≤ x := hx a (h.mem a hlast)
    split_ifs with hfa
    · refine h.concat hfar fun b hb => ?_
      have hlt : a < x := lt_of_le_of_ne hax fun heq => hfar.irrefl x (heq ▸ hfa)
      rcases List.mem_append.mp hb with hb | hb
      · obtain ⟨hba, hfb⟩ := (List.pairwise_append.mp h.apart).2.2 b hb a (List.mem_singleton_self a)
        exact ⟨hba.trans hlt, hfar.mono hba.le hax hfb⟩
      · rw [List.mem_singleton.mp hb]
        exact ⟨hlt, hfa⟩
    · exact h.skip hlast hax hfa

/-- **The anchors of a sorted list.** -/
theorem anchors_covers [DecidableRel far] (hfar : Upward far) (hxs : xs.Pairwise (· ≤ ·)) :
    Covers far xs (anchors far xs) := by
  induction xs using List.reverseRecOn with
  | nil => exact ⟨fun _ h => h, List.Pairwise.nil, fun _ h => nomatch h⟩
  | append_singleton xs x ih =>
    obtain ⟨hxs, -, hx⟩ := List.pairwise_append.mp hxs
    rw [anchors_concat]
    exact openIf_covers hfar (ih hxs) fun y hy => hx y hy x (List.mem_singleton_self x)

/-! ## The anchors of an item -/

/-- A higher anchor is far from a lower one. -/
theorem Covers.far_of_lt (h : Covers far xs as) {a b : α} (ha : a ∈ as) (hb : b ∈ as) (hab : a < b) :
    far a b := by
  have hup : as.Pairwise fun a b => a < b → far a b := h.apart.imp fun hab _ => hab.2
  have hdown : as.Pairwise fun a b => b < a → far b a :=
    h.apart.imp fun hab hba => absurd hba hab.1.asymm
  exact hup.forall_of_forall_of_flip (fun a _ haa => absurd haa (lt_irrefl a)) hdown ha hb hab

/-- Two anchors that are not above an item and not far from it are one. -/
theorem Covers.eq_of_near (hfar : Upward far) (h : Covers far xs as) {a b : α} (ha : a ∈ as)
    (hb : b ∈ as) (hax : a ≤ x) (hbx : b ≤ x) (hna : ¬ far a x) (hnb : ¬ far b x) : a = b := by
  rcases lt_trichotomy a b with hab | hab | hab
  · exact absurd (hfar.mono hab.le hbx (h.far_of_lt ha hb hab)) hna
  · exact hab
  · exact absurd (hfar.mono hab.le hax (h.far_of_lt hb ha hab)) hnb

/-- **Each item has one anchor** that is not above it and not far from it. -/
theorem Covers.existsUnique (hfar : Upward far) (h : Covers far xs as) (hx : x ∈ xs) :
    ∃! a, a ∈ as ∧ a ≤ x ∧ ¬ far a x := by
  obtain ⟨a, ha, hax, hnear⟩ := h.covered x hx
  exact ⟨a, ⟨ha, hax, hnear⟩, fun b hb => h.eq_of_near hfar hb.1 ha hb.2.1 hax hb.2.2 hnear⟩

/-- **It has no other one** exactly when it is not near an anchor above it. -/
theorem Covers.existsUnique_iff (hfar : Upward far) (h : Covers far xs as) (hx : x ∈ xs) :
    (∃! a, a ∈ as ∧ ¬ far a x) ↔ ∀ a ∈ as, x < a → far a x := by
  obtain ⟨a, ha, hax, hna⟩ := h.covered x hx
  constructor
  · intro hone b hb hxb
    by_contra hnb
    have hab : a = b := hone.unique ⟨ha, hna⟩ ⟨hb, hnb⟩
    exact absurd (hab ▸ hxb) (not_lt.mpr hax)
  · intro habove
    refine ⟨a, ⟨ha, hna⟩, fun b ⟨hb, hnb⟩ => ?_⟩
    have hbx : b ≤ x := not_lt.mp fun hxb => hnb (habove b hb hxb)
    exact h.eq_of_near hfar hb ha hbx hax hnb hna

end Order

end Greedy
