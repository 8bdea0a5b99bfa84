import GoStencil.Proofs.Stream.Scan

/-!
# One text in place of another

Where a scan has come to the end of a lexeme, another text can follow instead, if it does not go on
with that lexeme. A word or a number never ends right before a word, and a literal or a comment ends
by itself, so where a word stood only a slash can be joined with what comes in its place.

* `Resumes`: one text can come in place of another, whatever lexeme has ended before it.
* `Ends.resume`: that lexeme ends as before.
* `Scans.resume`, `Scans.resume_line`: what has been scanned is scanned again before the other text,
  and before a new line.
-/

namespace GoStencil

variable {rest after : List Char} {slash : Bool}

/-! ## 1. Steps -/

/-- How far steps go up to some place does not depend on what comes after it, if they stop there
    anyway and it makes no difference to a step at the last character. -/
theorem Step.runLength_resume {step : Step} {cs : List Char} (hstop : step.take after = 0)
    (hlast : ∀ c, step c after.head? = step c rest.head?)
    (h : runLength step (cs ++ rest) = cs.length) :
    runLength step (cs ++ after) = cs.length := by
  induction hn : cs.length using Nat.strongRecOn generalizing cs with
  | ind n ih =>
    subst hn
    cases cs with
    | nil => exact runLength_of_take_eq_zero hstop
    | cons c cs =>
      rw [List.cons_append] at h ⊢
      cases htake : step.take (c :: (cs ++ rest)) with
      | zero =>
        rw [runLength_of_take_eq_zero htake] at h
        cases h
      | succ more =>
        have hsame : step.take (c :: (cs ++ after)) = more + 1 := by
          rw [← htake]
          cases cs with
          | nil => exact hlast c
          | cons d cs => rfl
        rw [runLength_cons htake, List.length_cons] at h
        rw [runLength_cons hsame, List.length_cons]
        have hdrop : ∀ ds : List Char, (cs ++ ds).drop more = cs.drop more ++ ds :=
          fun ds => List.drop_append_of_le_length (by omega)
        have hlength : (cs.drop more).length = cs.length - more := List.length_drop
        rw [hdrop] at h ⊢
        rw [ih _ (by rw [hlength, List.length_cons]; omega) (by omega) rfl]
        omega

/-- Steps stop after what they took. -/
theorem take_eq_zero_of_runLength {step : Step} {cs : List Char}
    (h : runLength step (cs ++ rest) = cs.length) : step.take rest = 0 := by
  have hstop := take_drop_runLength step (cs ++ rest)
  rwa [h, List.drop_left] at hstop

/-! ## 2. Texts -/

/-- Whether a text can come in place of another: it begins a line where there was nothing, or begins
    like the other one, or takes the place of a word. Neither a digit nor a slash does that; nor
    does a star, where the flag says that a slash stands before. -/
inductive Resumes (slash : Bool) : List Char → List Char → Prop where
  | nil : Resumes slash [] []
  | line {cs : List Char} : Resumes slash [] ('\n' :: cs)
  | same {c : Char} {cs ds : List Char}
      (hpoint : c = '.' → ds.head?.any Char.isDigit = true → cs.head?.any Char.isDigit = true) :
      Resumes slash (c :: cs) (c :: ds)
  | word {c d : Char} {cs ds : List Char} (hstart : Text.isIdentifierStart c = true)
      (hdigit : d.isDigit = false) (hslash : d ≠ '/') (hstar : slash = true → d ≠ '*') :
      Resumes slash (c :: cs) (d :: ds)

namespace Resumes

theorem refl (slash : Bool) : ∀ rest, Resumes slash rest rest
  | [] => .nil
  | _ :: _ => .same fun _ h => h

theorem isDigit_head (h : Resumes slash rest after) (hdigit : after.head?.any Char.isDigit = true) :
    rest.head?.any Char.isDigit = true := by
  cases h with
  | nil | same => exact hdigit
  | line => cases hdigit
  | word _ hother => simp [hother] at hdigit

/-- The same characters can stand before both texts. -/
theorem cons (h : Resumes slash rest after) (slash' : Bool) (c : Char) (cs : List Char) :
    Resumes slash' (c :: (cs ++ rest)) (c :: (cs ++ after)) := by
  refine .same fun _ hdigit => ?_
  cases cs with
  | nil => exact h.isDigit_head hdigit
  | cons d cs => exact hdigit

variable {cs : List Char}

theorem runLength_oneOfClass (h : Resumes slash rest after) {p : Char → Bool}
    (hword : ∀ c, Text.isIdentifierStart c = true → p c = true) (hline : p '\n' = false)
    (hrun : runLength (oneOfClass p) (cs ++ rest) = cs.length) :
    runLength (oneOfClass p) (cs ++ after) = cs.length := by
  refine Step.runLength_resume ?_ (fun c => ?_) hrun
  · have hstop := take_eq_zero_of_runLength hrun
    cases h with
    | nil | same => exact hstop
    | line => rw [Step.take_cons, oneOfClass, hline, if_neg Bool.false_ne_true]
    | word hstart =>
      rw [Step.take_cons, oneOfClass, if_pos (hword _ hstart)] at hstop
      cases hstop
  · rw [oneOfClass, oneOfClass]

theorem runLength_numberStep (h : Resumes slash rest after)
    (hrun : runLength numberStep (cs ++ rest) = cs.length) :
    runLength numberStep (cs ++ after) = cs.length := by
  have hstop := take_eq_zero_of_runLength hrun
  cases h with
  | nil => exact hrun
  | line => exact Step.runLength_resume rfl (fun c => by simp [numberStep]) hrun
  | same hpoint =>
    refine Step.runLength_resume ?_ (fun c => ?_) hrun
    swap
    · rfl
    rw [Step.take_cons, numberStep] at hstop ⊢
    split_ifs at hstop with hnone hchar
    rw [if_neg fun hboth => hnone ⟨hboth.1, hpoint hboth.1 hboth.2⟩, if_neg hchar]
  | word hstart =>
    have hcontinue := Text.isXidContinue_of_isIdentifierStart hstart
    rw [Step.take_cons, numberStep] at hstop
    split_ifs at hstop

theorem commentLength_nil (h : Resumes slash rest after) (hslash : slash = true)
    (hnone : commentLength rest = 0) : commentLength after = 0 := by
  cases h with
  | nil | line => rfl
  | same =>
    rw [commentLength] at hnone ⊢
    split_ifs at hnone ⊢
    · omega
    · omega
  | word _ _ hother hstar => rw [commentLength, if_neg hother, if_neg (hstar hslash)]

theorem isLineEnd_eq_false {c : Char} (h : Text.isIdentifierStart c = true) :
    isLineEnd c = false := by
  rw [isLineEnd, Bool.or_eq_false_iff]
  refine ⟨beq_eq_false_iff_ne.mpr ?_, beq_eq_false_iff_ne.mpr ?_⟩ <;>
  · rintro rfl
    revert h
    decide

theorem commentLength_cons (h : Resumes slash rest after) {c : Char}
    (hlength : commentLength (c :: (cs ++ rest)) = cs.length + 1) :
    commentLength (c :: (cs ++ after)) = cs.length + 1 := by
  rw [commentLength] at hlength ⊢
  split_ifs at hlength ⊢
  · have hword : ∀ c, Text.isIdentifierStart c = true → (!isLineEnd c) = true := fun c hc => by
      rw [isLineEnd_eq_false hc, Bool.not_false]
    rw [h.runLength_oneOfClass hword rfl (by omega)]
    omega
  · have hrun : runLength blockStep cs = runLength blockStep (cs ++ rest) :=
      endsWithin_blockStep.runLength_append rest (by omega)
    rw [fits_blockStep.runLength_extend after (by omega) (by omega)]
    omega

end Resumes

/-! ## 3. Lexemes -/

/-- **A lexeme that ends before a text ends before the other one**, also if it is a slash, which
    could go on as a comment. -/
theorem Ends.resume {c : Char} {tail : List Char} (h : Ends c tail rest)
    (hresumes : Resumes slash rest after) (hslash : c = '/' → tail = [] → slash = true) :
    Ends c tail after := by
  unfold Ends tailLength at h ⊢
  split_ifs at h ⊢ with hstart hdigit hquote hraw hcomment
  · exact hresumes.runLength_oneOfClass (fun _ => Text.isXidContinue_of_isIdentifierStart)
      (by decide) h
  · exact hresumes.runLength_numberStep h
  · have hescape : c ≠ '\\' := by
      rintro rfl
      rcases hquote with hc | hc <;> cases hc
    have hrun : runLength (quotedStep c) tail = runLength (quotedStep c) (tail ++ rest) :=
      (endsWithin_quotedStep c).runLength_append rest (by omega)
    rw [runLength_quotedStep_append hescape (by omega)]
    omega
  · have hrun : runLength (oneOfClass (· != '\x60')) tail =
        runLength (oneOfClass (· != '\x60')) (tail ++ rest) :=
      (endsWithin_oneOfClass 1 _).runLength_append rest (by omega)
    rw [(fits_oneOfClass _).runLength_extend after (by omega) fun _ _ _ hzero => hzero]
    omega
  · cases tail with
    | nil => exact hresumes.commentLength_nil (hslash hcomment rfl) h
    | cons d tail => exact hresumes.commentLength_cons h
  · exact h

namespace Scans

variable {first : List Lexeme} {cs : List Char}

/-- What follows what has been scanned can be replaced if every lexeme ends before the other text,
    too. -/
theorem replace_rest (hends : ∀ {c tail ms}, Ends c tail (ms ++ rest) → Ends c tail (ms ++ after))
    (h : Scans (cs ++ rest) first rest) : Scans (cs ++ after) first after := by
  generalize hinput : cs ++ rest = input at h
  induction h generalizing cs with
  | @done rest =>
    have hcs : cs = [] := List.append_cancel_right (hinput.trans (List.nil_append rest).symm)
    rw [hcs]
    exact .done
  | @more c tail mid rest lexemes hend hscans ih =>
    obtain ⟨ms, rfl, -⟩ := hscans.exists_scan
    have hcs : cs = c :: (tail ++ ms) := by
      refine List.append_cancel_right (hinput.trans ?_)
      rw [List.cons_append, List.append_assoc]
    rw [hcs, List.cons_append, List.append_assoc]
    exact .more (hends hend) (ih hends rfl)

/-- **What has been scanned is scanned again before another text.** -/
theorem resume (h : Scans (cs ++ rest) first rest) (hrest : ∀ slash, Resumes slash rest after) :
    Scans (cs ++ after) first after := by
  refine h.replace_rest fun {c tail ms} hend => ?_
  have hmid : Resumes true (ms ++ rest) (ms ++ after) := by
    cases ms with
    | nil => exact hrest true
    | cons d ms => exact (hrest true).cons true d ms
  exact hend.resume hmid fun _ _ => rfl

/-- What has been scanned is scanned again before a new line, whatever came after it. -/
theorem resume_line (h : Scans (cs ++ rest) first rest) (ds : List Char) :
    Scans (cs ++ '\n' :: ds) first ('\n' :: ds) := by
  have hnone : Scans (cs ++ []) first [] := h.replace_rest fun {c tail ms} hend => by
    rw [List.append_nil]
    exact hend.of_append
  exact hnone.resume fun _ => .line

end Scans

end GoStencil
