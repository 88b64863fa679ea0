/-
A text and its lines.

`lines` ends a line at a line feed, or at a carriage return with a line feed, and has no empty line after the last ending; lines are
joined by single line feeds. Joined lines are read back as they were unless one of them has a carriage return at its end.
-/
import ServerBee.Lib.Regex

namespace ServerBee.Lib

/-- a line that was read in reverse, up to its line feed -/
def stripCr (acc : Text) : Text := if acc.head? = some '\r' then acc.tail.reverse else acc.reverse

def linesFrom : Text → Text → List Text
  | acc, [] => if acc = [] then [] else [acc.reverse]
  | acc, c :: cs => if c = '\n' then stripCr acc :: linesFrom [] cs else linesFrom (c :: acc) cs

def lines (t : Text) : List Text := linesFrom [] t

def joinLines (ls : List Text) : Text := ['\n'].intercalate ls

def endsLine (t : Text) : Bool := t.getLast? == some '\n'

/-- no carriage return at the end -/
def Uncut (l : Text) : Prop := l.getLast? ≠ some '\r'

/-! ## Lines of a text -/

-- the equations are made here, once for the lemmas below
attribute [local simp] stripCr linesFrom lines joinLines in
theorem linesFrom_append {l : Text} (h : '\n' ∉ l) (acc cs : Text) : linesFrom acc (l ++ cs) = linesFrom (l.reverse ++ acc) cs := by
  induction l generalizing acc with
  | nil => rfl
  | cons c l ih =>
    have hc : c ≠ '\n' := fun heq => h (heq ▸ List.mem_cons_self)
    rw [List.cons_append, linesFrom, if_neg hc, ih (fun hmem => h (List.mem_cons_of_mem c hmem)), List.reverse_cons,
      List.append_assoc]
    rfl

theorem lines_line {l : Text} (h : '\n' ∉ l) (hcut : Uncut l) (cs : Text) : lines (l ++ '\n' :: cs) = l :: lines cs := by
  have hstrip : stripCr l.reverse = l := by
    rw [stripCr, List.head?_reverse, if_neg hcut, List.reverse_reverse]
  rw [lines, linesFrom_append h, List.append_nil, linesFrom, if_pos rfl, hstrip, lines]

theorem lines_last {l : Text} (h : '\n' ∉ l) (hne : l ≠ []) : lines l = [l] := by
  have hread := linesFrom_append h [] []
  rw [List.append_nil, List.append_nil] at hread
  rw [lines, hread, linesFrom, if_neg (by simpa using hne), List.reverse_reverse]

theorem newline_not_mem_linesFrom {acc : Text} (hacc : '\n' ∉ acc) {t l : Text} (h : l ∈ linesFrom acc t) : '\n' ∉ l := by
  induction t generalizing acc with
  | nil =>
    rw [linesFrom] at h
    split_ifs at h
    · cases h
    · rw [List.mem_singleton.1 h]
      simpa using hacc
  | cons c t ih =>
    rw [linesFrom] at h
    split_ifs at h with hc
    · rcases List.mem_cons.1 h with rfl | h
      · rw [stripCr]
        split_ifs
        · simpa using fun hmem => hacc (List.mem_of_mem_tail hmem)
        · simpa using hacc
      · exact ih List.not_mem_nil h
    · exact ih (by simpa using ⟨Ne.symm hc, hacc⟩) h

theorem newline_not_mem_lines {t l : Text} (h : l ∈ lines t) : '\n' ∉ l := newline_not_mem_linesFrom List.not_mem_nil h

theorem linesFrom_ne_nil {acc t : Text} (h : acc ++ t ≠ []) : linesFrom acc t ≠ [] := by
  induction t generalizing acc with
  | nil =>
    rw [List.append_nil] at h
    rw [linesFrom, if_neg h]
    exact List.cons_ne_nil _ _
  | cons c t ih =>
    rw [linesFrom]
    split_ifs
    · exact List.cons_ne_nil _ _
    · exact ih (by simp)

theorem lines_ne_nil {t : Text} (h : t ≠ []) : lines t ≠ [] := linesFrom_ne_nil h

/-- the last line of a text that does not end a line is not empty -/
theorem getLast_linesFrom {acc t : Text} (h : (acc.reverse ++ t).getLast? ≠ some '\n') {l : Text}
    (hl : (linesFrom acc t).getLast? = some l) : l ≠ [] := by
  induction t generalizing acc with
  | nil =>
    rw [linesFrom] at hl
    split_ifs at hl with hacc
    · cases hl
    · cases hl
      simpa using hacc
  | cons c t ih =>
    rw [linesFrom] at hl
    split_ifs at hl with hc
    · cases t with
      | nil =>
        rw [hc, List.getLast?_append_cons] at h
        exact absurd rfl h
      | cons c' t =>
        have hne : linesFrom [] (c' :: t) ≠ [] := linesFrom_ne_nil (by simp)
        rw [List.getLast?_cons, List.getLast?_eq_some_getLast hne, Option.getD_some] at hl
        refine ih ?_ (by rw [List.getLast?_eq_some_getLast hne, hl])
        simpa [List.getLast?_append] using h
    · refine ih ?_ hl
      simpa using h

/-! ## Lines that were joined -/

theorem joinLines_singleton (l : Text) : joinLines [l] = l := by simp [joinLines]

theorem joinLines_cons (l l' : Text) (ls : List Text) : joinLines (l :: l' :: ls) = l ++ '\n' :: joinLines (l' :: ls) := by
  simp [joinLines, List.intercalate_cons_cons]

/-- with an ending after the last line -/
theorem lines_joinLines_end {ls : List Text} (hne : ls ≠ []) (h : ∀ l ∈ ls, '\n' ∉ l ∧ Uncut l) :
    lines (joinLines ls ++ ['\n']) = ls := by
  induction ls with
  | nil => exact absurd rfl hne
  | cons l ls ih =>
    have hl := h l List.mem_cons_self
    cases ls with
    | nil =>
      rw [joinLines_singleton, lines_line hl.1 hl.2]
      rfl
    | cons l' ls =>
      rw [joinLines_cons, List.append_assoc, List.cons_append, lines_line hl.1 hl.2,
        ih (List.cons_ne_nil _ _) fun l'' hl'' => h l'' (List.mem_cons_of_mem l hl'')]

/-- without one, if the last line is not empty -/
theorem lines_joinLines {ls : List Text} (h : ∀ l ∈ ls, '\n' ∉ l ∧ Uncut l) (hlast : ∀ l, ls.getLast? = some l → l ≠ []) :
    lines (joinLines ls) = ls := by
  induction ls with
  | nil => rfl
  | cons l ls ih =>
    have hl := h l List.mem_cons_self
    cases ls with
    | nil =>
      rw [joinLines_singleton, lines_last hl.1 (hlast l rfl)]
    | cons l' ls =>
      rw [joinLines_cons, lines_line hl.1 hl.2,
        ih (fun l'' hl'' => h l'' (List.mem_cons_of_mem l hl'')) fun l'' hl'' => hlast l'' (by simpa using hl'')]

end ServerBee.Lib
