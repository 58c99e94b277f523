import Mathlib.Data.List.Forall2
import Mathlib.Data.List.Induction
import Mathlib.Logic.Relation

/-!
# Runs of a labelled system

A system is a step function `σ → ℓ → Option (σ × ο)`: the label says who acts and what it brings
from outside (a request, a clock reading, a schedule), the output is what the step answers. A run
keeps its transitions, so that a statement can speak about the states it went through.

* `Run.invariant`: what every transition keeps holds at the end of a run.
* `Run.history`: the same for a property that also speaks about the transitions so far.
* `Run.forall_iff`: an exact condition on single transitions is exact on runs.
* `Run.cut`: a run up to one of its transitions; `Run.since`: from one of its transitions on.
* `Happened`: events of the past.
* `Run.refines`: a run maps to steps of an abstract relation.
* `Run.lockstep`: a system that answers every step of another one answers its runs.
* `Run.project`: the part of a run that concerns a component is a run of the component.
* `exec_run`: a schedule that can be executed is a run.
-/

namespace Sys

variable {σ ℓ ο : Type}

/-- One step of a run: the states before and after it, its label and its output. -/
structure Transition (σ ℓ ο : Type) where
  pre : σ
  label : ℓ
  out : ο
  post : σ

/-- `Run step s₀ ts s`: from `s₀`, the transitions `ts` lead to `s`. -/
inductive Run (step : σ → ℓ → Option (σ × ο)) (s₀ : σ) : List (Transition σ ℓ ο) → σ → Prop
  | nil : Run step s₀ [] s₀
  | snoc {ts : List (Transition σ ℓ ο)} {s s' : σ} {l : ℓ} {o : ο} :
      Run step s₀ ts s → step s l = some (s', o) → Run step s₀ (ts ++ [⟨s, l, o, s'⟩]) s'

variable {step : σ → ℓ → Option (σ × ο)} {s₀ s : σ} {ts : List (Transition σ ℓ ο)}

/-- What holds of the empty run, and is kept when a run grows by one transition. The list of
transitions is part of the statement, so that it can relate a state to its past. -/
theorem Run.history {I : List (Transition σ ℓ ο) → σ → Prop} (h : Run step s₀ ts s) (h0 : I [] s₀)
    (hstep : ∀ us s l o s', Run step s₀ us s → step s l = some (s', o) →
      (∀ u ∈ us ++ [⟨s, l, o, s'⟩], u ∈ ts) → I us s → I (us ++ [⟨s, l, o, s'⟩]) s') : I ts s := by
  induction h with
  | nil => exact h0
  | @snoc ts s s' l o hr hs ih =>
    refine hstep ts s l o s' hr hs (fun u hu => hu) (ih fun us s l o s' hus ht hsub => ?_)
    exact hstep us s l o s' hus ht fun u hu => List.mem_append_left _ (hsub u hu)

/-- **Invariants.** What every transition of a run keeps holds at its end. -/
theorem Run.invariant {I : σ → Prop} (h : Run step s₀ ts s) (h0 : I s₀)
    (hstep : ∀ s l o s', ⟨s, l, o, s'⟩ ∈ ts → step s l = some (s', o) → I s → I s') : I s :=
  h.history (I := fun _ s => I s) h0 fun _ s l o s' _ ht hsub hI =>
    hstep s l o s' (hsub _ (by simp)) ht hI

/-- **Exact conditions.** If, from a state with the invariant `I`, a transition is good exactly when
it meets a condition, and then keeps `I`, then a run is good all along exactly when all its
transitions meet the condition. -/
theorem Run.forall_iff {I : σ → Prop} {good cond : Transition σ ℓ ο → Prop}
    (h : Run step s₀ ts s) (h0 : I s₀)
    (hstep : ∀ s l o s', step s l = some (s', o) → I s →
      (good ⟨s, l, o, s'⟩ ↔ cond ⟨s, l, o, s'⟩) ∧ (cond ⟨s, l, o, s'⟩ → I s')) :
    (∀ t ∈ ts, good t) ↔ ∀ t ∈ ts, cond t := by
  have hinv : ((∀ t ∈ ts, good t) ↔ ∀ t ∈ ts, cond t) ∧ ((∀ t ∈ ts, cond t) → I s) := by
    refine h.history (I := fun ts s => ((∀ t ∈ ts, good t) ↔ ∀ t ∈ ts, cond t) ∧
      ((∀ t ∈ ts, cond t) → I s)) ⟨by simp, fun _ => h0⟩ ?_
    rintro us s l o s' - hst - ⟨hiff, hlast⟩
    simp only [List.forall_mem_append, List.forall_mem_singleton]
    constructor
    · rw [hiff]
      exact and_congr_right fun hpast => (hstep s l o s' hst (hlast hpast)).1
    · exact fun ⟨hpast, hc⟩ => (hstep s l o s' hst (hlast hpast)).2 hc
  exact hinv.1

/-- A run up to one of its transitions. -/
theorem Run.cut {us vs : List (Transition σ ℓ ο)} {t : Transition σ ℓ ο}
    (h : Run step s₀ (us ++ t :: vs) s) :
    Run step s₀ us t.pre ∧ step t.pre t.label = some (t.post, t.out) := by
  induction vs using List.reverseRecOn generalizing s with
  | nil =>
    generalize hts : us ++ [t] = ts at h
    cases h with
    | nil => simp at hts
    | snoc hr hs =>
      obtain ⟨rfl, hlast⟩ := List.append_inj' hts rfl
      cases hlast
      exact ⟨hr, hs⟩
  | append_singleton vs v ih =>
    generalize hts : us ++ t :: (vs ++ [v]) = ts at h
    cases h with
    | nil => simp at hts
    | snoc hr hs =>
      rw [← List.cons_append, ← List.append_assoc] at hts
      obtain ⟨rfl, -⟩ := List.append_inj' hts rfl
      exact ih hr

/-- **What a transition establishes**, and every later one keeps, holds at the end of the run. -/
theorem Run.since {J : σ → Prop} {us vs : List (Transition σ ℓ ο)} {t : Transition σ ℓ ο}
    (h : Run step s₀ (us ++ t :: vs) s) (h0 : J t.post)
    (hstep : ∀ ws v, Run step s₀ ws v.pre → step v.pre v.label = some (v.post, v.out) →
      (∀ w ∈ ws ++ [v], w ∈ us ++ t :: vs) → J v.pre → J v.post) : J s := by
  induction vs using List.reverseRecOn generalizing s with
  | nil =>
    generalize hts : us ++ [t] = ts at h
    cases h with
    | nil => simp at hts
    | snoc hr hs =>
      obtain ⟨rfl, hlast⟩ := List.append_inj' hts rfl
      cases hlast
      exact h0
  | append_singleton vs v ih =>
    rw [← List.cons_append, ← List.append_assoc] at h hstep
    have hpre := ih h.cut.1 fun ws w hrun hs hsub => hstep ws w hrun hs fun x hx =>
      List.mem_append_left _ (hsub x hx)
    generalize hts : us ++ t :: vs ++ [v] = ts at h
    cases h with
    | nil => simp at hts
    | snoc hr hs =>
      obtain ⟨rfl, hv⟩ := List.append_inj' hts rfl
      cases hv
      exact hstep _ _ hr hs (fun x hx => hx) hpre

/-! ## Past events -/

/-- Some transition of the list has the property, which may also refer to those before it. -/
def Happened (p : List (Transition σ ℓ ο) → Transition σ ℓ ο → Prop)
    (ts : List (Transition σ ℓ ο)) : Prop :=
  ∃ before t after, ts = before ++ t :: after ∧ p before t

variable {p : List (Transition σ ℓ ο) → Transition σ ℓ ο → Prop}

/-- What has happened stays in the past. -/
theorem Happened.append (h : Happened p ts) (us : List (Transition σ ℓ ο)) :
    Happened p (ts ++ us) := by
  obtain ⟨before, t, after, rfl, ht⟩ := h
  exact ⟨before, t, after ++ us, by rw [List.append_assoc, List.cons_append], ht⟩

/-- The last transition has happened. -/
theorem Happened.last {t : Transition σ ℓ ο} (h : p ts t) : Happened p (ts ++ [t]) :=
  ⟨ts, t, [], rfl, h⟩

/-- **Refinement.** If each transition of a run, from a state with the invariant `I`, keeps `I` and
maps to steps of an abstract relation, then so does the run. -/
theorem Run.refines {α : Type} (h : Run step s₀ ts s) (astep : α → α → Prop) (abs : σ → α)
    (I : σ → Prop) (h0 : I s₀)
    (hstep : ∀ s l o s', ⟨s, l, o, s'⟩ ∈ ts → step s l = some (s', o) → I s →
      I s' ∧ Relation.ReflTransGen astep (abs s) (abs s')) :
    I s ∧ Relation.ReflTransGen astep (abs s₀) (abs s) :=
  h.invariant (I := fun s => I s ∧ Relation.ReflTransGen astep (abs s₀) (abs s)) ⟨h0, .refl⟩
    fun s l o s' ht hst ⟨hI, hR⟩ =>
      ⟨(hstep s l o s' ht hst hI).1, hR.trans (hstep s l o s' ht hst hI).2⟩

/-- Lists that are related pointwise, cut at the last item. -/
theorem forall₂_concat {α β : Type} {R : α → β → Prop} {x : α} {xs : List α} {ys : List β}
    (h : List.Forall₂ R (xs ++ [x]) ys) :
    ∃ before y, ys = before ++ [y] ∧ List.Forall₂ R xs before ∧ R x y := by
  induction xs generalizing ys with
  | nil =>
    obtain ⟨y, _, hxy, hnil, rfl⟩ := List.forall₂_cons_left_iff.mp h
    cases hnil
    exact ⟨[], y, rfl, .nil, hxy⟩
  | cons x' xs ih =>
    obtain ⟨y', _, hxy, hrest, rfl⟩ := List.forall₂_cons_left_iff.mp h
    obtain ⟨before, y, rfl, hbefore, hlast⟩ := ih hrest
    exact ⟨y' :: before, y, rfl, .cons hxy hbefore, hlast⟩

/-- **Lockstep.** If a second system answers every step of the first, from related states and for
related labels, with a step to related states and a related output, then it answers every run. -/
theorem Run.lockstep {σ' ℓ' ο' : Type} {step' : σ' → ℓ' → Option (σ' × ο')} {t₀ : σ'}
    {R : σ → σ' → Prop} {L : ℓ → ℓ' → Prop} {O : ο → ο' → Prop} {ls : List ℓ'}
    (h : Run step s₀ ts s) (h0 : R s₀ t₀)
    (hstep : ∀ s l o s' t m, step s l = some (s', o) → R s t → L l m →
      ∃ t' o', step' t m = some (t', o') ∧ R s' t' ∧ O o o')
    (hls : List.Forall₂ L (ts.map Transition.label) ls) :
    ∃ us t, Run step' t₀ us t ∧ us.map Transition.label = ls ∧ R s t ∧
      List.Forall₂ (fun u v => O u.out v.out ∧ R u.post v.post) ts us := by
  induction h generalizing ls with
  | nil =>
    cases hls
    exact ⟨[], t₀, .nil, rfl, h0, .nil⟩
  | @snoc ts s s' l o _ hs ih =>
    rw [List.map_append] at hls
    obtain ⟨ls, m, rfl, hpast, hlm⟩ := forall₂_concat hls
    obtain ⟨us, t, hrun, rfl, hR, hus⟩ := ih hpast
    obtain ⟨t', o', ht, hR', hO⟩ := hstep s l o s' t m hs hR hlm
    exact ⟨us ++ [⟨t, m, o', t'⟩], t', hrun.snoc ht, List.map_append, hR',
      List.rel_append hus (.cons ⟨hO, hR'⟩ .nil)⟩

/-! ## Components -/

section Component

variable {σ' ℓ' ο' : Type} {step' : σ' → ℓ' → Option (σ' × ο')} {abs : σ → σ'}
  {part : Transition σ ℓ ο → Option (Transition σ' ℓ' ο')}

/-- What a transition does to a component: a step of it, or nothing. -/
def Projects (step' : σ' → ℓ' → Option (σ' × ο')) (abs : σ → σ') (t : Transition σ ℓ ο) :
    Option (Transition σ' ℓ' ο') → Prop
  | some u => u.pre = abs t.pre ∧ u.post = abs t.post ∧ step' u.pre u.label = some (u.post, u.out)
  | none => abs t.post = abs t.pre

/-- **The part of a run that concerns a component is a run of the component.** -/
theorem Run.project (h : Run step s₀ ts s) (abs : σ → σ')
    (hstep : ∀ us s l o s', Run step s₀ us s → ⟨s, l, o, s'⟩ ∈ ts → step s l = some (s', o) →
      Projects step' abs ⟨s, l, o, s'⟩ (part ⟨s, l, o, s'⟩)) :
    Run step' (abs s₀) (ts.filterMap part) (abs s) := by
  refine h.history (I := fun ts s => Run step' (abs s₀) (ts.filterMap part) (abs s)) .nil ?_
  intro us s l o s' hrun hs hsub hI
  have hpart := hstep us s l o s' hrun (hsub _ (by simp)) hs
  rw [List.filterMap_append]
  cases hp : part ⟨s, l, o, s'⟩ with
  | none =>
    rw [hp] at hpart
    rw [List.filterMap_cons_none hp, List.filterMap_nil, List.append_nil, hpart]
    exact hI
  | some u =>
    obtain ⟨pre, label, out, post⟩ := u
    rw [hp] at hpart
    obtain ⟨rfl, rfl, hu⟩ := hpart
    rw [List.filterMap_cons_some hp, List.filterMap_nil]
    exact hI.snoc hu

end Component

/-! ## Executing a schedule -/

/-- The run of a schedule, if every step of it is enabled. -/
def exec (step : σ → ℓ → Option (σ × ο)) : σ → List ℓ → Option (List (Transition σ ℓ ο) × σ)
  | s, [] => some ([], s)
  | s, l :: ls => do
    let (s', o) ← step s l
    let (ts, t) ← exec step s' ls
    return (⟨s, l, o, s'⟩ :: ts, t)

theorem Run.cons {s s' : σ} {l : ℓ} {o : ο} (hs : step s₀ l = some (s', o))
    (h : Run step s' ts s) : Run step s₀ (⟨s₀, l, o, s'⟩ :: ts) s := by
  induction h with
  | nil => exact .snoc .nil hs
  | snoc _ hst ih => exact ih.snoc hst

/-- A schedule that can be executed is a run. -/
theorem exec_run {ls : List ℓ} (h : exec step s₀ ls = some (ts, s)) : Run step s₀ ts s := by
  induction ls generalizing s₀ ts with
  | nil =>
    obtain ⟨rfl, rfl⟩ := Prod.mk.inj (Option.some.inj h)
    exact .nil
  | cons l ls ih =>
    simp only [exec, bind, Option.bind_eq_some_iff] at h
    obtain ⟨⟨s', o⟩, hs, ⟨us, t⟩, hrun, hret⟩ := h
    obtain ⟨rfl, rfl⟩ := Prod.mk.inj (Option.some.inj hret)
    exact (ih hrun).cons hs

/-- A run with a decidable property is found by executing a schedule. -/
theorem exists_run (step : σ → ℓ → Option (σ × ο)) (s₀ : σ) (ls : List ℓ)
    (p : List (Transition σ ℓ ο) → σ → Prop) [∀ ts s, Decidable (p ts s)]
    (h : (exec step s₀ ls).any (fun r => decide (p r.1 r.2)) = true) :
    ∃ ts s, Run step s₀ ts s ∧ p ts s := by
  obtain ⟨⟨ts, s⟩, he, hp⟩ := (Option.any_eq_true _ _).mp h
  exact ⟨ts, s, exec_run he, of_decide_eq_true hp⟩

end Sys
