import Mathlib.Data.List.Induction

/-!
# Format strings

In a format string a letter stands for itself, two markers for one marker, and a marker with
another letter for the next argument, converted as that letter says.  `render` is `none` where the
string has no meaning: a marker with nothing behind it, a conversion without an argument, or an
argument the letter cannot convert.

`escape` doubles the markers.  The strings with a meaning without arguments are the escaped ones,
each of them meaning the text that was escaped.

Nothing here mentions a program.
-/

namespace Format

/-- The letter that starts a conversion, and the conversions. -/
structure Conversions (α β : Type*) where
  marker : α
  convert : α → β → Option (List α)

namespace Conversions

variable {α β : Type*} [DecidableEq α] (c : Conversions α β)

def render : List α → List β → Option (List α)
  | [], _ => some []
  | [letter], _ => if letter = c.marker then none else some [letter]
  | letter :: next :: rest, args =>
      if letter ≠ c.marker then (render (next :: rest) args).map (letter :: ·)
      else if next = c.marker then (render rest args).map (c.marker :: ·)
      else
        match args with
        | [] => none
        | arg :: args => (c.convert next arg).bind fun out => (render rest args).map (out ++ ·)

def escape (text : List α) : List α :=
  text.flatMap fun letter => if letter = c.marker then [letter, letter] else [letter]

variable {c} {letter : α} {text out rest : List α} {args : List β}

@[simp] theorem render_nil : c.render [] args = some [] := by
  unfold render
  rfl

theorem render_letter (plain : letter ≠ c.marker) :
    c.render (letter :: rest) args = (c.render rest args).map (letter :: ·) := by
  cases rest with
  | nil => simp only [render, if_neg plain, Option.map_some]
  | cons next rest => simp only [render, ne_eq, plain, not_false_eq_true, ↓reduceIte]

@[simp] theorem render_marker :
    c.render (c.marker :: c.marker :: rest) args = (c.render rest args).map (c.marker :: ·) := by
  simp only [render, ne_eq, not_true_eq_false, ↓reduceIte]

@[simp] theorem render_lone : c.render [c.marker] args = none := by
  simp only [render, ↓reduceIte]

theorem render_convert {arg : β} (other : letter ≠ c.marker) :
    c.render (c.marker :: letter :: rest) (arg :: args) =
      (c.convert letter arg).bind fun out => (c.render rest args).map (out ++ ·) := by
  simp only [render, ne_eq, not_true_eq_false, other, ↓reduceIte]

theorem render_missing (other : letter ≠ c.marker) :
    c.render (c.marker :: letter :: rest) [] = none := by
  simp only [render, ne_eq, not_true_eq_false, other, ↓reduceIte]

@[simp] theorem escape_nil : c.escape [] = [] := rfl

theorem escape_letter (plain : letter ≠ c.marker) :
    c.escape (letter :: rest) = letter :: c.escape rest := by
  rw [escape, List.flatMap_cons, if_neg plain]
  rfl

@[simp] theorem escape_marker :
    c.escape (c.marker :: rest) = c.marker :: c.marker :: c.escape rest := by
  rw [escape, List.flatMap_cons, if_pos rfl]
  rfl

/-- Escaped text is rendered as it was before. -/
theorem render_escape_append (text : List α) :
    c.render (c.escape text ++ rest) args = (c.render rest args).map (text ++ ·) := by
  induction text with
  | nil => simp
  | cons letter text ih =>
      by_cases marks : letter = c.marker
      · subst marks
        rw [escape_marker, List.cons_append, List.cons_append, render_marker, ih, Option.map_map]
        rfl
      · rw [escape_letter marks, List.cons_append, render_letter marks, ih, Option.map_map]
        rfl

/-- **Without arguments, the escaped strings have a meaning and no others.** -/
theorem render_eq_some_iff : c.render text [] = some out ↔ text = c.escape out := by
  constructor
  · intro rendered
    induction text using List.twoStepInduction generalizing out with
    | nil =>
        rw [render_nil] at rendered
        cases rendered
        rfl
    | singleton letter =>
        by_cases marks : letter = c.marker
        · rw [marks, render_lone] at rendered
          cases rendered
        · rw [render_letter marks, render_nil] at rendered
          cases rendered
          rw [escape_letter marks, escape_nil]
    | cons_cons letter next rest ih₂ ih₁ =>
        by_cases marks : letter = c.marker
        · subst marks
          by_cases again : next = c.marker
          · subst again
            rw [render_marker, Option.map_eq_some_iff] at rendered
            obtain ⟨later, read, rfl⟩ := rendered
            rw [escape_marker, ih₂ read]
          · rw [render_missing again] at rendered
            cases rendered
        · rw [render_letter marks, Option.map_eq_some_iff] at rendered
          obtain ⟨later, read, rfl⟩ := rendered
          rw [escape_letter marks, ih₁ next read]
  · rintro rfl
    have whole : c.render (c.escape out ++ []) [] = (c.render [] []).map (out ++ ·) :=
      c.render_escape_append out
    rwa [List.append_nil, render_nil, Option.map_some, List.append_nil] at whole

theorem escape_of_notMem (plain : c.marker ∉ text) : c.escape text = text := by
  induction text with
  | nil => rfl
  | cons letter text ih =>
      obtain ⟨other, later⟩ := not_or.mp (mt List.mem_cons.mpr plain)
      rw [escape_letter (Ne.symm other), ih later]

/-- Text without markers is rendered as it is. -/
theorem render_append (plain : c.marker ∉ text) :
    c.render (text ++ rest) args = (c.render rest args).map (text ++ ·) := by
  have escaped : c.render (c.escape text ++ rest) args = (c.render rest args).map (text ++ ·) :=
    c.render_escape_append text
  rwa [escape_of_notMem plain] at escaped

theorem render_of_notMem (plain : c.marker ∉ text) : c.render text args = some text := by
  have whole : c.render (text ++ []) args = (c.render [] args).map (text ++ ·) :=
    render_append plain
  rwa [List.append_nil, render_nil, Option.map_some, List.append_nil] at whole

/-- A string with one conversion. -/
theorem render_one {before after : List α} {arg : β} (plainBefore : c.marker ∉ before)
    (other : letter ≠ c.marker) (plainAfter : c.marker ∉ after)
    (converted : c.convert letter arg = some out) :
    c.render (before ++ c.marker :: letter :: after) [arg] = some (before ++ out ++ after) := by
  rw [render_append plainBefore, render_convert other, converted, Option.bind_some,
    render_of_notMem plainAfter, Option.map_some, Option.map_some, List.append_assoc]

end Conversions

end Format
