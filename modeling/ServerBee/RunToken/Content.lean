/-
The run token in the agent's configuration (`run_token_store.rs`).

The text is edited by lines: the first line before any table that sets `token` is replaced, and otherwise a line is put in front of the
first table. `render_again` says that of several tokens written one after the other only the last is there, as if it had been the only
one. That rests on carriage returns: a line that keeps one at its end after its ending was taken off loses it with the next write.
-/
import ServerBee.Lib.Lines

namespace ServerBee.RunToken

open ServerBee.Lib

def trimStart (t : Text) : Text := t.dropWhile isWhiteSpace

def tokenKey : Text := ['t', 'o', 'k', 'e', 'n']

def isTokenLine (line : Text) : Bool :=
  tokenKey.isPrefixOf (trimStart line) && (trimStart ((trimStart line).drop tokenKey.length)).head? == some '='

def isTableHeader (line : Text) : Bool := (trimStart line).head? == some '[' && (trimStart line).getLast? == some ']'

def tokenLine (token : Text) : Text := tokenKey ++ [' ', '=', ' ', '"'] ++ token ++ ['"']

/-- the lines with one of them replaced or put in -/
def editLines (ls : List Text) (line : Text) : List Text :=
  let preambleEnd := ls.findIdx isTableHeader
  match (ls.take preambleEnd).findIdx? isTokenLine with
  | some pos => ls.set pos line
  | none => ls.insertIdx preambleEnd line

def renderTokenContent (existing token : Text) : Text :=
  let rendered := joinLines (editLines (lines existing) (tokenLine token))
  if endsLine existing then rendered ++ ['\n'] else rendered

/-! ## The line of the token -/

-- the equations are made here, once for the lemmas below
attribute [local simp] tokenKey tokenLine trimStart isTokenLine isTableHeader editLines in
theorem trimStart_tokenLine (token : Text) : trimStart (tokenLine token) = tokenLine token := by
  rw [trimStart, tokenLine, tokenKey, List.append_assoc, List.append_assoc, List.cons_append,
    List.dropWhile_cons_of_neg (by decide)]

theorem isTokenLine_tokenLine (token : Text) : isTokenLine (tokenLine token) = true := by
  have hblank : isWhiteSpace ' ' = true := by decide
  have hequals : isWhiteSpace '=' = false := by decide
  rw [isTokenLine, trimStart_tokenLine]
  simp [tokenLine, tokenKey, trimStart, hblank, hequals]

theorem isTableHeader_tokenLine (token : Text) : isTableHeader (tokenLine token) = false := by
  rw [isTableHeader, trimStart_tokenLine]
  simp [tokenLine, tokenKey]

theorem newline_not_mem_tokenLine {token : Text} (h : '\n' ∉ token) : '\n' ∉ tokenLine token := by
  simp [tokenLine, tokenKey, h]

theorem uncut_tokenLine (token : Text) : Uncut (tokenLine token) := by
  rw [Uncut, tokenLine, List.getLast?_concat]
  decide

/-! ## Edits -/

/-- a line that is neither a table's nor the token's -/
def Plain (line : Text) : Prop := isTableHeader line = false ∧ isTokenLine line = false

/-- the text is split once for all tokens: around the line that is replaced, or where a line is put in -/
inductive Place : List Text → List Text → List Text → Prop
  | replace {before rest : List Text} {line : Text} (hplain : ∀ l ∈ before, Plain l) (hheader : isTableHeader line = false)
    (htoken : isTokenLine line = true) : Place (before ++ line :: rest) before rest
  | insert {before rest : List Text} (hplain : ∀ l ∈ before, Plain l) (hrest : ∀ l ∈ rest.head?, isTableHeader l = true) :
    Place (before ++ rest) before rest

theorem findIdx_plain {before : List Text} (h : ∀ l ∈ before, Plain l) (rest : List Text) :
    (before ++ rest).findIdx isTableHeader = before.length + rest.findIdx isTableHeader := by
  induction before with
  | nil => simp
  | cons l before ih =>
    rw [List.cons_append, List.findIdx_cons, (h l List.mem_cons_self).1, cond_false, ih fun l' hl' => h l' (List.mem_cons_of_mem l hl'),
      List.length_cons]
    omega

theorem findIdx?_plain {before : List Text} (h : ∀ l ∈ before, Plain l) (rest : List Text) :
    (before ++ rest).findIdx? isTokenLine = (rest.findIdx? isTokenLine).map fun i => before.length + i := by
  have hnone : before.findIdx? isTokenLine = none := List.findIdx?_eq_none_iff.2 fun l hl => (h l hl).2
  rw [List.findIdx?_append, hnone, Option.none_or]
  congr 1
  funext i
  omega

theorem Place.cons {l : Text} (hl : Plain l) {ls before rest : List Text} (h : Place ls before rest) :
    Place (l :: ls) (l :: before) rest := by
  have hall : (∀ l' ∈ before, Plain l') → ∀ l' ∈ l :: before, Plain l' := fun hplain => List.forall_mem_cons.2 ⟨hl, hplain⟩
  cases h with
  | replace hplain hheader htoken => exact .replace (hall hplain) hheader htoken
  | insert hplain hrest => exact .insert (hall hplain) hrest

theorem Place.exists (ls : List Text) : ∃ before rest, Place ls before rest := by
  have hnone : ∀ l ∈ ([] : List Text), Plain l := fun _ hl => absurd hl List.not_mem_nil
  induction ls with
  | nil => exact ⟨[], [], .insert hnone (by simp)⟩
  | cons l ls ih =>
    cases hheader : isTableHeader l with
    | true => exact ⟨[], l :: ls, .insert hnone (by simpa using hheader)⟩
    | false =>
      cases htoken : isTokenLine l with
      | true => exact ⟨[], ls, .replace hnone hheader htoken⟩
      | false =>
        obtain ⟨before, rest, hplace⟩ := ih
        exact ⟨l :: before, rest, hplace.cons ⟨hheader, htoken⟩⟩

theorem insertIdx_length (before rest : List Text) (line : Text) :
    (before ++ rest).insertIdx before.length line = before ++ line :: rest := by
  induction before with
  | nil => rfl
  | cons l before ih => rw [List.cons_append, List.length_cons, List.insertIdx_succ_cons, ih, List.cons_append]

theorem Place.edit {ls before rest : List Text} (h : Place ls before rest) (line : Text) :
    editLines ls line = before ++ line :: rest := by
  cases h with
  | @replace before rest line' hplain hheader htoken =>
    have hfound : ((before ++ line' :: rest).take ((before ++ line' :: rest).findIdx isTableHeader)).findIdx? isTokenLine =
        some before.length := by
      rw [findIdx_plain hplain, List.findIdx_cons, hheader, cond_false, List.take_length_add_append, List.take_succ_cons,
        findIdx?_plain hplain, List.findIdx?_cons, htoken]
      rfl
    simp only [editLines, hfound]
    rw [List.set_append_right _ _ (le_refl _), Nat.sub_self, List.set_cons_zero]
  | insert hplain hrest =>
    have hheader : rest.findIdx isTableHeader = 0 := by
      cases rest with
      | nil => rfl
      | cons l rest => rw [List.findIdx_cons, hrest l rfl, cond_true]
    have hnone : ((before ++ rest).take ((before ++ rest).findIdx isTableHeader)).findIdx? isTokenLine = none := by
      rw [findIdx_plain hplain, hheader, Nat.add_zero, List.take_append_length]
      exact List.findIdx?_eq_none_iff.2 fun l hl => (hplain l hl).2
    simp only [editLines, hnone]
    rw [findIdx_plain hplain, hheader, Nat.add_zero, insertIdx_length]

/-- after an edit the place is the same -/
theorem Place.edited {ls before rest : List Text} (h : Place ls before rest) (token : Text) :
    Place (before ++ tokenLine token :: rest) before rest := by
  cases h with
  | replace hplain _ _ => exact .replace hplain (isTableHeader_tokenLine token) (isTokenLine_tokenLine token)
  | insert hplain _ => exact .replace hplain (isTableHeader_tokenLine token) (isTokenLine_tokenLine token)

/-! ## Contents -/

/-- no line keeps a carriage return at its end -/
def Clean (content : Text) : Prop := ∀ l ∈ lines content, Uncut l

theorem Place.mem {ls before rest : List Text} (h : Place ls before rest) {l : Text} (hl : l ∈ before ∨ l ∈ rest) : l ∈ ls := by
  cases h with
  | replace _ _ _ => exact List.mem_append.2 (hl.imp_right (List.mem_cons_of_mem _))
  | insert _ _ => exact List.mem_append.2 hl

/-- a line after the token's is the last one as before -/
theorem Place.getLast {ls before rest : List Text} (h : Place ls before rest) {l : Text} (hl : rest.getLast? = some l) :
    ls.getLast? = some l := by
  cases h with
  | replace _ _ _ => simp [List.getLast?_append, List.getLast?_cons, hl]
  | insert _ _ => simp [List.getLast?_append, hl]

/-- joined lines are a text unless the only one is empty -/
theorem joinLines_ne_nil {l : Text} {ls : List Text} (hlast : ∀ l', (l :: ls).getLast? = some l' → l' ≠ []) :
    joinLines (l :: ls) ≠ [] := by
  cases ls with
  | nil => simpa [joinLines] using hlast l rfl
  | cons l' ls => simp [joinLines_cons]

/-- the last character of joined lines is that of the last one -/
theorem endsLine_joinLines {ls : List Text} (h : ∀ l ∈ ls, '\n' ∉ l) (hlast : ∀ l, ls.getLast? = some l → l ≠ []) :
    endsLine (joinLines ls) = false := by
  induction ls with
  | nil => rfl
  | cons l ls ih =>
    cases ls with
    | nil =>
      rw [joinLines_singleton, endsLine, beq_eq_false_iff_ne]
      exact fun hend => h l List.mem_cons_self (List.mem_of_getLast? hend)
    | cons l' ls =>
      have hlast' : ∀ l'', (l' :: ls).getLast? = some l'' → l'' ≠ [] := fun l'' hl'' => hlast l'' (by simpa using hl'')
      have hrest := ih (fun l'' hl'' => h l'' (List.mem_cons_of_mem l hl'')) hlast'
      have hc := List.getLast?_eq_some_getLast (joinLines_ne_nil hlast')
      rw [joinLines_cons, endsLine, List.getLast?_append, List.getLast?_cons, hc]
      rwa [endsLine, hc] at hrest

section Render

variable {content token : Text}

/-- what a write makes of a text whose place for the token is known -/
theorem render_eq {before rest : List Text} (hplace : Place (lines content) before rest) :
    renderTokenContent content token =
      joinLines (before ++ tokenLine token :: rest) ++ if endsLine content = true then ['\n'] else [] := by
  simp only [renderTokenContent, hplace.edit]
  split_ifs
  · rfl
  · rw [List.append_nil]

variable (hclean : Clean content) (htoken : '\n' ∉ token)

include hclean htoken

theorem edited_lines {before rest : List Text} (hplace : Place (lines content) before rest) :
    ∀ l ∈ before ++ tokenLine token :: rest, '\n' ∉ l ∧ Uncut l := by
  intro l hl
  have hold : l ∈ lines content → '\n' ∉ l ∧ Uncut l := fun hmem => ⟨newline_not_mem_lines hmem, hclean l hmem⟩
  rcases List.mem_append.1 hl with hl | hl
  · exact hold (hplace.mem (.inl hl))
  · rcases List.mem_cons.1 hl with rfl | hl
    · exact ⟨newline_not_mem_tokenLine htoken, uncut_tokenLine token⟩
    · exact hold (hplace.mem (.inr hl))

/-- a write changes one line of the configuration, or puts one in, and keeps how the text ends -/
theorem lines_render {before rest : List Text} (hplace : Place (lines content) before rest) :
    lines (renderTokenContent content token) = before ++ tokenLine token :: rest ∧
      endsLine (renderTokenContent content token) = endsLine content := by
  have hedited := edited_lines hclean htoken hplace
  rw [render_eq hplace]
  cases hends : endsLine content with
  | true =>
    rw [if_pos rfl]
    refine ⟨lines_joinLines_end (by simp) hedited, ?_⟩
    rw [endsLine, List.getLast?_concat]
    rfl
  | false =>
    have hlast : ∀ l, (before ++ tokenLine token :: rest).getLast? = some l → l ≠ [] := by
      intro l hl
      cases hrest : rest.getLast? with
      | none =>
        rw [List.getLast?_eq_none_iff.1 hrest, List.getLast?_concat] at hl
        cases hl
        simp [tokenLine]
      | some l' =>
        have hsame : l' = l := by simpa [List.getLast?_append, List.getLast?_cons, hrest] using hl
        rw [← hsame]
        exact getLast_linesFrom (by simpa [endsLine] using hends) (hplace.getLast hrest)
    rw [if_neg (by decide), List.append_nil]
    exact ⟨lines_joinLines hedited hlast, endsLine_joinLines (fun l hl => (hedited l hl).1) hlast⟩

theorem clean_render : Clean (renderTokenContent content token) := by
  obtain ⟨before, rest, hplace⟩ := Place.exists (lines content)
  intro l hl
  rw [(lines_render hclean htoken hplace).1] at hl
  exact (edited_lines hclean htoken hplace l hl).2

/-- of two tokens only the second is there -/
theorem render_again (token' : Text) :
    renderTokenContent (renderTokenContent content token) token' = renderTokenContent content token' := by
  obtain ⟨before, rest, hplace⟩ := Place.exists (lines content)
  obtain ⟨hlines, hends⟩ := lines_render hclean htoken hplace
  have hplace' : Place (lines (renderTokenContent content token)) before rest := by
    rw [hlines]
    exact hplace.edited token
  rw [render_eq hplace', hends, render_eq hplace]

/-- of several tokens only the last is there -/
theorem foldl_render {tokens : List Text} (htokens : ∀ t ∈ tokens, '\n' ∉ t) :
    tokens.foldl renderTokenContent (renderTokenContent content token) =
      renderTokenContent content (tokens.getLastD token) := by
  induction tokens generalizing token with
  | nil => rfl
  | cons t tokens ih =>
    obtain ⟨ht, hrest⟩ := List.forall_mem_cons.1 htokens
    rw [List.foldl_cons, render_again hclean htoken, ih ht hrest, List.getLastD_cons]

end Render

end ServerBee.RunToken
