import Mathlib.Data.List.Infix
import Mathlib.Data.List.TakeWhile

/-!
# The words of a text

A text is a list of characters, some of which are letters. Its words are the maximal runs of letters.

* `mem_words_iff`: a run of letters is a word exactly when it occurs delimited: before and after it
  stands no letter.
* `infix_iff_exists_word`: a run of letters occurs in a text exactly when a word contains it.
-/

namespace Words

variable {α : Type} {isLetter : α → Bool}

/-- The maximal runs of letters, in order. -/
def words (isLetter : α → Bool) (text : List α) : List (List α) :=
  (text.splitOnP fun c => !isLetter c).filter fun w => !w.isEmpty

/-- Here a word may end. -/
def Ends (isLetter : α → Bool) (before : List α) : Prop :=
  ∀ c ∈ before.getLast?, isLetter c = false

/-- Here a word may begin. -/
def Begins (isLetter : α → Bool) (after : List α) : Prop := ∀ c ∈ after.head?, isLetter c = false

/-- `w` occurs in the text with no letter right before it and none right after it. -/
def Delimited (isLetter : α → Bool) (w text : List α) : Prop :=
  ∃ before after, before ++ w ++ after = text ∧ Ends isLetter before ∧ Begins isLetter after

theorem Delimited.isInfix {w text : List α} (h : Delimited isLetter w text) : w <:+: text := by
  obtain ⟨before, after, heq, -⟩ := h
  exact ⟨before, after, heq⟩

instance (before : List α) : Decidable (Ends isLetter before) :=
  inferInstanceAs (Decidable (∀ c ∈ before.getLast?, _))

instance (after : List α) : Decidable (Begins isLetter after) :=
  inferInstanceAs (Decidable (∀ c ∈ after.head?, _))

/-- The occurrence by its position. -/
theorem delimited_iff_position {w text : List α} :
    Delimited isLetter w text ↔ ∃ i < text.length + 1, w <+: text.drop i ∧
      Ends isLetter (text.take i) ∧ Begins isLetter ((text.drop i).drop w.length) := by
  constructor
  · rintro ⟨before, after, rfl, hends, hbegins⟩
    refine ⟨before.length, ?_, ?_, ?_, ?_⟩
    · rw [List.length_append, List.length_append]
      omega
    · simp
    · simpa using hends
    · simpa using hbegins
  · rintro ⟨i, -, ⟨after, hafter⟩, hends, hbegins⟩
    refine ⟨text.take i, after, ?_, hends, ?_⟩
    · rw [List.append_assoc, hafter, List.take_append_drop]
    · rwa [← hafter, List.drop_left] at hbegins

instance [DecidableEq α] (w text : List α) : Decidable (Delimited isLetter w text) :=
  decidable_of_iff' _ delimited_iff_position

/-! ## Cutting a text -/

/-- A text is one run of letters, or a run, a character that is no letter, and the rest. -/
theorem text_induction {motive : List α → Prop} (run : ∀ x, (∀ c ∈ x, isLetter c) → motive x)
    (cut : ∀ x c y, isLetter c = false → motive x → motive y → motive (x ++ c :: y))
    (text : List α) : motive text := by
  induction hn : text.length using Nat.strong_induction_on generalizing text with
  | _ n ih =>
    have hx : ∀ c ∈ text.takeWhile isLetter, isLetter c := fun c hc => List.mem_takeWhile_imp hc
    cases hd : text.dropWhile isLetter with
    | nil =>
      have heq := List.takeWhile_append_dropWhile (p := isLetter) (l := text)
      rw [hd, List.append_nil] at heq
      exact run text (heq ▸ hx)
    | cons c y =>
      have heq := List.takeWhile_append_dropWhile (p := isLetter) (l := text)
      have hc : isLetter c = false := by
        have := List.head_dropWhile_not isLetter (l := text) (by simp [hd])
        simpa [hd] using this
      rw [hd] at heq
      rw [← heq]
      refine cut _ c y hc (run _ hx) (ih y.length ?_ y rfl)
      rw [← hn, ← heq, List.length_append, List.length_cons]
      omega

theorem words_append {c : α} (hc : isLetter c = false) (x y : List α) :
    words isLetter (x ++ c :: y) = words isLetter x ++ words isLetter y := by
  rw [words, List.splitOnP_append_cons _ _ (by simp [hc]), List.filter_append]
  rfl

theorem words_run {x : List α} (hx : ∀ c ∈ x, isLetter c) (hne : x ≠ []) :
    words isLetter x = [x] := by
  rw [words, List.splitOnP_eq_singleton (by simpa using hx)]
  simp [hne]

theorem words_nil : words isLetter [] = [] := by
  rw [words, List.splitOnP_nil]
  rfl

/-- An occurrence without a separator lies on one side of it. -/
theorem occurrence_split {c : α} {w before after x y : List α} (hw : c ∉ w)
    (h : before ++ w ++ after = x ++ c :: y) :
    (∃ t, before ++ w ++ t = x ∧ after = t ++ c :: y) ∨
      ∃ t, before = x ++ c :: t ∧ t ++ w ++ after = y := by
  rw [List.append_eq_append_iff] at h
  obtain ⟨t, hx, hafter⟩ | ⟨t, hbw, hcy⟩ := h
  · exact Or.inl ⟨t, hx.symm, hafter⟩
  · cases t with
    | nil =>
      rw [List.append_nil] at hbw
      exact Or.inl ⟨[], by rw [List.append_nil, hbw], hcy.symm⟩
    | cons _ t =>
      obtain ⟨rfl, rfl⟩ := List.cons.inj hcy
      -- The separator is not in `w`, so it is in what stands before.
      obtain ⟨s, -, hs⟩ | ⟨s, hbefore, hs⟩ := List.append_eq_append_iff.mp hbw
      · exact absurd (by rw [hs]; simp) hw
      · cases s with
        | nil => exact absurd (by rw [← List.nil_append w, ← hs]; simp) hw
        | cons _ s =>
          obtain ⟨rfl, rfl⟩ := List.cons.inj hs
          exact Or.inr ⟨s, hbefore, rfl⟩

theorem isInfix_cut {c : α} {w x y : List α} (hw : c ∉ w) :
    w <:+: x ++ c :: y ↔ w <:+: x ∨ w <:+: y := by
  constructor
  · rintro ⟨before, after, heq⟩
    obtain ⟨t, hx, -⟩ | ⟨t, -, hy⟩ := occurrence_split hw heq
    · exact Or.inl ⟨before, t, hx⟩
    · exact Or.inr ⟨t, after, hy⟩
  · rintro (h | h)
    · exact List.infix_append_of_infix_left h
    · exact List.infix_append_of_infix_right (List.infix_cons h)

theorem delimited_cut {c : α} (hc : isLetter c = false) {w x y : List α} (hw : c ∉ w) :
    Delimited isLetter w (x ++ c :: y) ↔ Delimited isLetter w x ∨ Delimited isLetter w y := by
  constructor
  · rintro ⟨before, after, heq, hends, hbegins⟩
    obtain ⟨t, hx, rfl⟩ | ⟨t, rfl, hy⟩ := occurrence_split hw heq
    · refine Or.inl ⟨before, t, hx, hends, fun d hd => hbegins d ?_⟩
      rw [List.head?_append, Option.mem_def.mp hd]
      rfl
    · refine Or.inr ⟨t, after, hy, fun d hd => hends d ?_, hbegins⟩
      rw [List.getLast?_append, List.getLast?_cons, Option.mem_def.mp hd]
      rfl
  · rintro (⟨before, after, rfl, hends, hbegins⟩ | ⟨before, after, rfl, hends, hbegins⟩)
    · refine ⟨before, after ++ c :: y, by simp, hends, fun d hd => ?_⟩
      cases after with
      | nil =>
        obtain rfl := Option.some.inj hd
        exact hc
      | cons e after => exact hbegins d hd
    · refine ⟨x ++ c :: before, after, by simp, fun d hd => ?_, hbegins⟩
      rw [List.getLast?_append, List.getLast?_cons] at hd
      cases hb : before.getLast? with
      | none =>
        rw [hb] at hd
        obtain rfl := Option.some.inj hd
        exact hc
      | some e =>
        rw [hb] at hd
        obtain rfl := Option.some.inj hd
        exact hends _ hb

theorem delimited_run {w x : List α} (hx : ∀ c ∈ x, isLetter c) :
    Delimited isLetter w x ↔ w = x := by
  constructor
  · rintro ⟨before, after, rfl, hends, hbegins⟩
    have hbefore : before = [] := by
      refine List.getLast?_eq_none_iff.mp (Option.eq_none_iff_forall_not_mem.mpr fun c hc => ?_)
      have hletter := hx c (by simp [List.mem_of_getLast? hc])
      rw [hends c hc] at hletter
      cases hletter
    have hafter : after = [] := by
      refine List.head?_eq_none_iff.mp (Option.eq_none_iff_forall_not_mem.mpr fun c hc => ?_)
      have hletter := hx c (by simp [List.mem_of_head? hc])
      rw [hbegins c hc] at hletter
      cases hletter
    rw [hbefore, hafter, List.nil_append, List.append_nil]
  · rintro rfl
    exact ⟨[], [], by simp, by simp [Ends], by simp [Begins]⟩

/-! ## Words and runs of letters -/

variable {w : List α} (hw : ∀ c ∈ w, isLetter c)

include hw

theorem not_mem_of_letters {c : α} (hc : isLetter c = false) : c ∉ w := by
  intro hmem
  rw [hw c hmem] at hc
  cases hc

/-- **A run of letters occurs in a text exactly when a word contains it.** -/
theorem infix_iff_exists_word (hne : w ≠ []) (text : List α) :
    w <:+: text ↔ ∃ word ∈ words isLetter text, w <:+: word := by
  induction text using @text_induction α isLetter with
  | run x hx =>
    by_cases hx0 : x = []
    · subst hx0
      simp [words_nil, hne]
    · simp [words_run hx hx0]
  | cut x c y hc ihx ihy =>
    rw [isInfix_cut (not_mem_of_letters hw hc), ihx, ihy, words_append hc]
    simp only [List.mem_append, or_and_right, exists_or]

/-- **A run of letters is a word exactly when it occurs delimited.** -/
theorem mem_words_iff (hne : w ≠ []) (text : List α) :
    w ∈ words isLetter text ↔ Delimited isLetter w text := by
  induction text using @text_induction α isLetter with
  | run x hx =>
    rw [delimited_run hx]
    by_cases hx0 : x = []
    · subst hx0
      simp [words_nil, hne]
    · rw [words_run hx hx0, List.mem_singleton]
  | cut x c y hc ihx ihy =>
    rw [delimited_cut hc (not_mem_of_letters hw hc), ← ihx, ← ihy, words_append hc,
      List.mem_append]

end Words
