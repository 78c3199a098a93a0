/-
# What the tokenizer takes out of the text

Names, digits and words are taken out of the text as slices of bytes, and so is the whole of a
number: also one that is rejected, for the error to show.  Such a run of characters is given by the
offset of its first byte and by what it holds.  The runs that are taken while a text is split into
tokens are listed here beside the tokenizer (`takenRuns`), up to the lexeme that cannot be read.

A run starts and ends between two characters, since what is in front of it, and the run itself, are
characters of the text (`hasAt_of_mem_takenRuns`).  What an error quotes is the last run that was
taken (`getLast?_takenRuns`).
-/
import GuardedMachine.Proofs.Statement.Scanning
import GuardedMachine.Proofs.Statement.Slices

namespace GuardedMachine

namespace Lexeme

/-- The runs taken for a path, from the character after its sigil on: its names, up to one that is
empty. -/
def pathRuns (offset : ℕ) (cs : List Char) : List (ℕ × String) :=
  match cs with
  | '.' :: cs =>
    (offset + 1, String.ofList (cs.takeWhile isWordChar)) ::
      if (cs.takeWhile isWordChar).isEmpty then []
      else pathRuns (offset + 1 + byteLength (cs.takeWhile isWordChar)) (cs.dropWhile isWordChar)
  | _ => []
termination_by cs.length
decreasing_by
  exact Nat.lt_succ_of_le (List.dropWhile_sublist isWordChar).length_le

/-- The runs taken for a number: its digits, those after the point if there is one, and all that it
is written with. -/
def numberRuns (offset : ℕ) (cs : List Char) : List (ℕ × String) :=
  let whole := cs.takeWhile Char.isDigit
  match cs.dropWhile Char.isDigit with
  | '.' :: after =>
    let fraction := after.takeWhile Char.isDigit
    [(offset, String.ofList whole), (offset + byteLength whole + 1, String.ofList fraction),
      (offset, String.ofList (whole ++ '.' :: fraction))]
  | _ => [(offset, String.ofList whole), (offset, String.ofList whole)]

/-- The runs taken for the first lexeme of a text that starts with the character `c`. -/
def runs (offset : ℕ) (c : Char) (cs : List Char) : List (ℕ × String) :=
  if c = '#' ∨ c = '$' then pathRuns (offset + c.utf8Size) cs
  else if c = '"' then []
  else if c.isDigit then numberRuns offset (c :: cs)
  else if isWordStart c then [(offset, String.ofList ((c :: cs).takeWhile isWordChar))]
  else []

end Lexeme

open Lexeme

/-- The runs taken by the tokenizer. -/
def takenRuns (offset : ℕ) (cs : List Char) : List (ℕ × String) :=
  match cs with
  | [] => []
  | c :: cs =>
    if Text.isBlank c then
      takenRuns (offset + c.utf8Size) cs
    else
      match h : first offset c cs with
      | .error _ => runs offset c cs
      | .ok l =>
        have := length_rest_lt_of_first h
        runs offset c cs ++ takenRuns (offset + byteLength l.chars) l.rest
termination_by cs.length
decreasing_by
  · simp
  · simpa using this

lemma takenRuns_blank {c : Char} (hc : Text.isBlank c = true) (offset : ℕ) (cs : List Char) :
    takenRuns offset (c :: cs) = takenRuns (offset + c.utf8Size) cs := by
  rw [takenRuns, if_pos hc]

lemma takenRuns_of_first_ok {c : Char} (hc : Text.isBlank c = false) {offset : ℕ}
    {cs : List Char} {l : Lexeme} (h : first offset c cs = .ok l) :
    takenRuns offset (c :: cs)
      = runs offset c cs ++ takenRuns (offset + byteLength l.chars) l.rest := by
  rw [takenRuns, if_neg (by simp [hc])]
  split
  · rename_i fault hfault
    cases h.symm.trans hfault
  · rename_i l' hl'
    cases h.symm.trans hl'
    rfl

lemma takenRuns_of_first_error {c : Char} (hc : Text.isBlank c = false) {offset : ℕ}
    {cs : List Char} {fault : Fault} (h : first offset c cs = .error fault) :
    takenRuns offset (c :: cs) = runs offset c cs := by
  rw [takenRuns, if_neg (by simp [hc])]
  split
  · rfl
  · rename_i l hl
    cases h.symm.trans hl

/-! ## Runs are parts of the text -/

section HasAt

variable {text : String} {offset : ℕ} {before cs : List Char} {run : ℕ × String}

/-- The first name of a path stands behind the point. -/
lemma hasAt_segment (htext : text.toList = before ++ '.' :: cs)
    (hoffset : byteLength before = offset) :
    Text.HasAt text (offset + 1) (String.ofList (cs.takeWhile isWordChar)) := by
  have hpoint : text.toList = (before ++ ['.']) ++ cs := by simpa using htext
  have hsegment := Text.hasAt_of_prefix hpoint (List.takeWhile_prefix isWordChar)
  rw [byteLength_append, hoffset] at hsegment
  exact hsegment

lemma hasAt_of_mem_pathRuns (htext : text.toList = before ++ cs)
    (hoffset : byteLength before = offset) (hrun : run ∈ pathRuns offset cs) :
    Text.HasAt text run.1 run.2 := by
  fun_induction pathRuns offset cs generalizing before with
  | case1 offset cs ih =>
    rcases List.mem_cons.1 hrun with rfl | hrun
    · exact hasAt_segment htext hoffset
    · -- the names behind the first one
      split at hrun
      · cases hrun
      · have hrest : text.toList = (before ++ '.' :: cs.takeWhile isWordChar)
            ++ cs.dropWhile isWordChar := by
          simpa [List.takeWhile_append_dropWhile] using htext
        refine ih hrest ?_ hrun
        rw [byteLength_append, hoffset, byteLength, ← Nat.add_assoc]
        rfl
  | case2 => cases hrun

lemma hasAt_of_mem_numberRuns (htext : text.toList = before ++ cs)
    (hrun : run ∈ numberRuns (byteLength before) cs) : Text.HasAt text run.1 run.2 := by
  have hsplit : cs.takeWhile Char.isDigit ++ cs.dropWhile Char.isDigit = cs :=
    List.takeWhile_append_dropWhile
  have hwhole := Text.hasAt_of_prefix htext (List.takeWhile_prefix Char.isDigit)
  simp only [numberRuns] at hrun
  split at hrun
  · rename_i after hafter
    rw [hafter] at hsplit
    have hpoint : text.toList = (before ++ (cs.takeWhile Char.isDigit ++ ['.'])) ++ after :=
      calc text.toList = before ++ (cs.takeWhile Char.isDigit ++ '.' :: after) := by
            rw [htext, hsplit]
        _ = _ := by simp
    have hbytes : byteLength (before ++ (cs.takeWhile Char.isDigit ++ ['.']))
        = byteLength before + byteLength (cs.takeWhile Char.isDigit) + 1 := by
      simp only [byteLength_append, ← Nat.add_assoc]
      rfl
    have hfraction := Text.hasAt_of_prefix hpoint (List.takeWhile_prefix Char.isDigit)
    rw [hbytes] at hfraction
    have hnumber : cs.takeWhile Char.isDigit ++ '.' :: after.takeWhile Char.isDigit <+: cs := by
      refine ⟨after.dropWhile Char.isDigit, ?_⟩
      rw [List.append_assoc, List.cons_append, List.takeWhile_append_dropWhile, hsplit]
    simp only [List.mem_cons, List.not_mem_nil, or_false] at hrun
    rcases hrun with rfl | rfl | rfl
    · exact hwhole
    · exact hfraction
    · exact Text.hasAt_of_prefix htext hnumber
  · obtain rfl : run = _ := by simpa using hrun
    exact hwhole

lemma hasAt_of_mem_runs {c : Char} (htext : text.toList = before ++ c :: cs)
    (hrun : run ∈ runs (byteLength before) c cs) : Text.HasAt text run.1 run.2 := by
  unfold runs at hrun
  split at hrun
  · have hnames : text.toList = (before ++ [c]) ++ cs := by simpa using htext
    exact hasAt_of_mem_pathRuns hnames (byteLength_append _ _) hrun
  split at hrun
  · cases hrun
  split at hrun
  · exact hasAt_of_mem_numberRuns htext hrun
  split at hrun
  · obtain rfl := List.mem_singleton.1 hrun
    exact Text.hasAt_of_prefix htext (List.takeWhile_prefix isWordChar)
  · cases hrun

/-- Every run that the tokenizer takes is a part of the text, where it says. -/
lemma hasAt_of_mem_takenRuns (htext : text.toList = before ++ cs)
    (hoffset : byteLength before = offset) (hrun : run ∈ takenRuns offset cs) :
    Text.HasAt text run.1 run.2 := by
  induction offset, cs using tokenize_induction generalizing before with
  | done offset =>
    rw [takenRuns] at hrun
    cases hrun
  | blank offset c cs hc ih =>
    rw [takenRuns_blank hc] at hrun
    have hrest : text.toList = (before ++ [c]) ++ cs := by simpa using htext
    exact ih hrest (by rw [byteLength_append, hoffset]; rfl) hrun
  | fault offset c cs err hc hfirst =>
    rw [takenRuns_of_first_error hc hfirst] at hrun
    exact hasAt_of_mem_runs htext (hoffset ▸ hrun)
  | lexeme offset c cs l hc hfirst ih =>
    rw [takenRuns_of_first_ok hc hfirst] at hrun
    rcases List.mem_append.1 hrun with hrun | hrun
    · exact hasAt_of_mem_runs htext (hoffset ▸ hrun)
    · have hrest : text.toList = (before ++ l.chars) ++ l.rest := by
        rw [List.append_assoc, (append_eq_of_first hfirst).1, htext]
      exact ih hrest (by rw [byteLength_append, hoffset]) hrun

end HasAt

/-! ## What errors quote -/

/-- The text that a syntax error quotes. -/
def SyntaxError.quoted? : SyntaxError → Option String
  | .invalidNumber s | .unknownIdentifier s => some s
  | _ => none

section Quoted

lemma eq_error_of_map {α β : Type} {f : α → β} {r : Except Fault α} {fault : Fault}
    (h : r.map f = .error fault) : r = .error fault := by
  cases r <;> cases h
  rfl

variable {offset : ℕ} {c : Char} {cs : List Char} {fault : Fault} {s : String}

lemma quoted?_of_path {scope : Scope} (h : path scope offset cs = .error fault) :
    fault.error.quoted? = none := by
  simp only [path] at h
  split at h
  · split at h <;> cases h
    rfl
  · cases h
    rfl

lemma quoted?_of_stringBody {start : ℕ} (h : stringBody start offset cs = .error fault) :
    fault.error.quoted? = none := by
  fun_induction stringBody start offset cs with
  | case1 | case3 | case5 =>
    cases h
    rfl
  | case2 => cases h
  | case4 _ _ _ _ ih => exact ih (eq_error_of_map h)
  | case6 _ _ _ _ _ _ ih => exact ih (eq_error_of_map h)

lemma getLast?_numberRuns_of_point {after : List Char}
    (hafter : cs.dropWhile Char.isDigit = '.' :: after) :
    (numberRuns offset cs).getLast?
      = some (offset,
          String.ofList (cs.takeWhile Char.isDigit ++ '.' :: after.takeWhile Char.isDigit)) := by
  rw [numberRuns, hafter]
  rfl

lemma getLast?_numberRuns_of_ne_point
    (hne : ∀ after, cs.dropWhile Char.isDigit = '.' :: after → False) :
    (numberRuns offset cs).getLast? = some (offset, String.ofList (cs.takeWhile Char.isDigit)) := by
  unfold numberRuns
  dsimp only
  split
  · rename_i hafter
    exact (hne _ hafter).elim
  · rfl

/-- The error of a number quotes all that the number is written with. -/
lemma getLast?_numberRuns (h : number offset cs = .error fault) (hs : s ∈ fault.error.quoted?) :
    (numberRuns offset cs).getLast? = some (fault.offset, s) := by
  simp only [number] at h
  split at h
  · rename_i hafter
    rw [getLast?_numberRuns_of_point hafter]
    split at h
    · cases h
      cases hs
      rfl
    · split at h <;> cases h
      cases hs
      rfl
  · rename_i hne
    rw [getLast?_numberRuns_of_ne_point hne]
    split at h <;> cases h
    cases hs
    rfl

/-- The error of a lexeme quotes the last run taken for it. -/
lemma getLast?_runs (h : first offset c cs = .error fault) (hs : s ∈ fault.error.quoted?) :
    (runs offset c cs).getLast? = some (fault.offset, s) := by
  have quotes_none (hnone : fault.error.quoted? = none) :
      (runs offset c cs).getLast? = some (fault.offset, s) := by
    rw [hnone] at hs
    cases hs
  simp only [first] at h
  split at h
  · exact quotes_none (quoted?_of_path h)
  split at h
  · exact quotes_none (quoted?_of_path h)
  split at h
  · exact quotes_none (quoted?_of_stringBody (eq_error_of_map h))
  rename_i hsubject hcontext hquote
  rw [runs, if_neg (not_or.2 ⟨hsubject, hcontext⟩), if_neg hquote]
  split at h
  · rename_i hdigit
    rw [if_pos hdigit]
    exact getLast?_numberRuns h hs
  rename_i hdigit
  rw [if_neg hdigit]
  split at h
  · rename_i hword
    rw [if_pos hword]
    simp only [word] at h
    split at h <;> cases h
    cases hs
    rfl
  · rw [symbol] at h
    split at h <;> cases h
    cases hs

/-- The error of the tokenizer quotes the last run that it has taken. -/
lemma getLast?_takenRuns (h : tokenize offset cs = .error fault)
    (hs : s ∈ fault.error.quoted?) : (takenRuns offset cs).getLast? = some (fault.offset, s) := by
  induction offset, cs using tokenize_induction with
  | done offset =>
    rw [tokenize_nil] at h
    cases h
  | blank offset c cs hc ih =>
    rw [tokenize_blank hc] at h
    rw [takenRuns_blank hc]
    exact ih h
  | fault offset c cs err hc hfirst =>
    rw [tokenize_of_first_error hc hfirst] at h
    cases h
    rw [takenRuns_of_first_error hc hfirst]
    exact getLast?_runs hfirst hs
  | lexeme offset c cs l hc hfirst ih =>
    rw [tokenize_of_first_ok hc hfirst] at h
    rw [takenRuns_of_first_ok hc hfirst, List.getLast?_append, ih (eq_error_of_map h),
      Option.some_or]

end Quoted

end GuardedMachine
