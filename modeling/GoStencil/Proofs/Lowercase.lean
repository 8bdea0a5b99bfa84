import GoStencil.Text.Case

/-!
# What lower case does to names of files

Every character has an image, and the image of no character but the slash holds a slash. So a text
in lower case is at least as long as the text, and it has slashes only where the text has them.

* `IsLowered`: what is kept of a text in lower case.
* `exists_isLowered`: a part of a text gives such a part of the text in lower case.
* `exists_lowercase_append_go`: an extension in lower case stays.
-/

namespace GoStencil.Text

/-! ## 1. Characters -/

theorem image_of_mem_lowerRuns : ∀ run ∈ lowerRuns, '/'.toNat < run.image := by
  decide +kernel

theorem image_of_mem_lowerExpansions :
    ∀ entry ∈ lowerExpansions, entry.2 ≠ [] ∧ ∀ code ∈ entry.2, '/'.toNat < code := by
  decide +kernel

theorem slash_toLower_ascii :
    ∀ code < 128, (Char.ofNat code).toLower = '/' → Char.ofNat code = '/' := by
  decide +kernel

theorem ofNat_ne_slash {code : Nat} (h : '/'.toNat < code) : Char.ofNat code ≠ '/' := by
  intro heq
  by_cases hvalid : code.isValidChar
  · rw [Char.ofNat, dif_pos hvalid] at heq
    have hcode : code = '/'.toNat := congrArg Char.toNat heq
    omega
  · rw [Char.ofNat, dif_neg hvalid] at heq
    cases heq

/-- The forms that a character in lower case can have: itself, what ASCII makes of it, or an entry
    of the tables, which holds no slash. -/
theorem lowerChar_eq (c : Char) :
    lowerChar c = [c] ∨ c.toNat < 128 ∧ lowerChar c = [c.toLower] ∨
      ∃ codes, codes ≠ [] ∧ (∀ code ∈ codes, '/'.toNat < code) ∧
        lowerChar c = codes.map Char.ofNat := by
  unfold lowerChar
  split
  · rename_i hascii
    exact .inr (.inl ⟨UInt32.lt_iff_toNat_lt.mp hascii, rfl⟩)
  · unfold mapCase
    split
    · rename_i codes hcodes
      obtain ⟨before, after, hentry, -⟩ := List.lookup_eq_some_iff.mp hcodes
      obtain ⟨hne, hcode⟩ := image_of_mem_lowerExpansions (c.toNat, codes) (by
        rw [hentry]
        exact List.mem_append_right _ List.mem_cons_self)
      exact .inr (.inr ⟨codes, hne, hcode, rfl⟩)
    · split
      · rename_i image himage
        obtain ⟨run, hmem, hrun⟩ := List.exists_of_findSome?_eq_some himage
        have hlow := image_of_mem_lowerRuns run hmem
        have himage : '/'.toNat < image := by
          unfold CaseRun.imageOf? at hrun
          split at hrun
          · cases hrun
            omega
          · cases hrun
        exact .inr (.inr ⟨[image], List.cons_ne_nil _ _, List.forall_mem_singleton.mpr himage, rfl⟩)
      · exact .inl rfl

/-! ## 2. Texts -/

/-- What is kept of characters in lower case: their number does not get less, and none of them
    becomes a slash. -/
structure IsLowered (cs image : List Char) : Prop where
  length : cs.length ≤ image.length
  slash : '/' ∈ image → '/' ∈ cs

namespace IsLowered

variable {cs ds image other : List Char}

theorem not_mem (h : IsLowered cs image) (hcs : '/' ∉ cs) : '/' ∉ image :=
  fun hmem => hcs (h.slash hmem)

theorem nil : IsLowered [] [] :=
  ⟨Nat.le_refl 0, id⟩

theorem append (h : IsLowered cs image) (h' : IsLowered ds other) :
    IsLowered (cs ++ ds) (image ++ other) where
  length := by
    have := h.length
    have := h'.length
    simp only [List.length_append]
    omega
  slash hmem := by
    rcases List.mem_append.mp hmem with hmem | hmem
    · exact List.mem_append_left _ (h.slash hmem)
    · exact List.mem_append_right _ (h'.slash hmem)

theorem singleton {c d : Char} (h : d = '/' → c = '/') : IsLowered [c] [d] :=
  ⟨Nat.le_refl 1, fun hmem => List.mem_singleton.mpr (h (List.mem_singleton.mp hmem).symm).symm⟩

end IsLowered

theorem isLowered_lowerChar (c : Char) : IsLowered [c] (lowerChar c) := by
  rcases lowerChar_eq c with h | ⟨hascii, h⟩ | ⟨codes, hne, hcode, h⟩
  · rw [h]
    exact .singleton id
  · have hslash := slash_toLower_ascii c.toNat hascii
    rw [Char.ofNat_toNat] at hslash
    rw [h]
    exact .singleton hslash
  · rw [h]
    refine ⟨?_, fun hmem => ?_⟩
    · rw [List.length_map]
      exact List.length_pos_iff.mpr hne
    · obtain ⟨code, hmem, heq⟩ := List.mem_map.mp hmem
      exact absurd heq (ofNat_ne_slash (hcode code hmem))

/-- **A part of a text gives a part of the text in lower case**, and what follows it sees the same
    characters before it. -/
theorem exists_isLowered (cs before ds : List Char) :
    ∃ image, IsLowered cs image ∧
      lowerAfter before (cs ++ ds) = image ++ lowerAfter (cs.reverse ++ before) ds := by
  induction cs generalizing before with
  | nil => exact ⟨[], .nil, rfl⟩
  | cons c cs ih =>
    obtain ⟨image, hlowered, h⟩ := ih (c :: before)
    rw [List.cons_append, lowerAfter, h, List.reverse_cons, List.append_assoc]
    have hfirst : IsLowered [c] (if c == 'Σ' then
        if touchesCased before && !touchesCased (cs ++ ds) then ['ς'] else ['σ']
        else lowerChar c) := by
      split
      · split <;> exact .singleton fun hslash => absurd hslash (by decide)
      · exact isLowered_lowerChar c
    exact ⟨_, hfirst.append hlowered, (List.append_assoc ..).symm⟩

/-- **An extension in lower case stays**, and what stands before it is lowered part by part. -/
theorem exists_lowercase_append_go (s t : String) :
    ∃ front back : String, IsLowered s.toList front.toList ∧ IsLowered t.toList back.toList ∧
      lowercase (s ++ t ++ ".go") = front ++ back ++ ".go" := by
  obtain ⟨front, hfront, hs⟩ := exists_isLowered s.toList [] (t.toList ++ ['.', 'g', 'o'])
  obtain ⟨back, hback, ht⟩ :=
    exists_isLowered t.toList (s.toList.reverse ++ []) ['.', 'g', 'o']
  refine ⟨String.ofList front, String.ofList back, by rwa [String.toList_ofList],
    by rwa [String.toList_ofList], String.toList_inj.mp ?_⟩
  simp only [lowercase, String.toList_ofList, String.toList_append, List.append_assoc]
  exact hs.trans (congrArg (front ++ ·) ht)

end GoStencil.Text
