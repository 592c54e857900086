import Mathlib.Data.List.DropRight
import Mathlib.Tactic.ByContra
import ElementGrammar.Text.Blank

/-!
# Blanks at the ends of a text and between its words

* `trim_trim`: a trimmed text has nothing to trim.
* `isBlankText_iff`: a text is blank where trimming leaves nothing of it.
* `isWord_of_mem_words`: the words of a text are not empty and hold no blank.
* `words_joined`: words that are put together with a blank after each are found again.
* `words_eq_iff`: the words of a text are its longest pieces without a blank, in order, which
  `Pieces` says without a word on how they are found.
-/

namespace ElementGrammar.Text

variable {cs piece : List Char}

/-! ## Trimming -/

theorem trimChars_eq (cs : List Char) :
    trimChars cs = (cs.dropWhile isBlank).rdropWhile isBlank :=
  rfl

/-- Where a list does not start with a blank, no part at its start does. -/
theorem dropWhile_of_prefix {cs' : List Char} (h : cs'.IsPrefix cs)
    (hcs : cs.dropWhile isBlank = cs) : cs'.dropWhile isBlank = cs' := by
  rw [List.dropWhile_eq_self_iff] at hcs ⊢
  intro hlength
  have hget := h.getElem hlength
  rw [hget]
  exact hcs _

theorem trimChars_trimChars (cs : List Char) : trimChars (trimChars cs) = trimChars cs := by
  have hstart : (trimChars cs).dropWhile isBlank = trimChars cs :=
    dropWhile_of_prefix (List.rdropWhile_prefix _ _) (List.dropWhile_idempotent _ _)
  rw [trimChars_eq (trimChars cs), hstart]
  exact List.rdropWhile_idempotent _ _

theorem trim_trim (s : String) : trim (trim s) = trim s := by
  rw [trim, trim, String.toList_ofList, trimChars_trimChars]

/-- Trimming leaves nothing exactly where there are only blanks. -/
theorem trimChars_eq_nil_iff : trimChars cs = [] ↔ ∀ c ∈ cs, isBlank c = true := by
  rw [trimChars_eq, List.rdropWhile_eq_nil_iff]
  constructor
  · intro hall
    rw [← List.dropWhile_eq_nil_iff]
    -- what is left would start with a character that is not blank
    by_contra hne
    have hfirst := List.head_dropWhile_not isBlank hne
    rw [hall _ (List.head_mem hne)] at hfirst
    cases hfirst
  · intro hall c hc
    exact hall c ((List.dropWhile_sublist isBlank).subset hc)

theorem isBlankText_iff {s : String} : isBlankText s = true ↔ trim s = "" := by
  rw [isBlankText, List.all_eq_true, ← trimChars_eq_nil_iff, trim, String.ofList_eq_empty_iff]

/-! ## Words -/

/-- A text that is not empty and holds no blank. -/
structure IsWord (w : String) : Prop where
  nonempty : w ≠ ""
  solid : ∀ c ∈ w.toList, isBlank c = false

theorem solid_of_mem_wordsFrom (hpiece : ∀ c ∈ piece, isBlank c = false) :
    ∀ w ∈ wordsFrom piece cs, w ≠ [] ∧ ∀ c ∈ w, isBlank c = false := by
  induction cs generalizing piece with
  | nil =>
    intro w hw
    rw [wordsFrom] at hw
    split at hw
    · cases hw
    · rename_i hne
      rw [List.mem_singleton.mp hw]
      exact ⟨fun hnil => hne (List.isEmpty_iff.mpr hnil), hpiece⟩
  | cons c cs ih =>
    intro w hw
    have hnil : ∀ c ∈ ([] : List Char), isBlank c = false := fun _ hc => absurd hc List.not_mem_nil
    rw [wordsFrom] at hw
    split at hw
    · split at hw
      · exact ih hnil w hw
      · rename_i hne
        rcases List.mem_cons.mp hw with rfl | hw
        · exact ⟨fun hnil => hne (List.isEmpty_iff.mpr hnil), hpiece⟩
        · exact ih hnil w hw
    · rename_i hc
      refine ih (fun d hd => ?_) w hw
      rcases List.mem_append.mp hd with hd | hd
      · exact hpiece d hd
      · rw [List.mem_singleton.mp hd]
        simpa using hc

theorem isWord_of_mem_words {s w : String} (h : w ∈ words s) : IsWord w := by
  obtain ⟨cs, hcs, rfl⟩ := List.mem_map.mp h
  obtain ⟨hne, hsolid⟩ := solid_of_mem_wordsFrom (fun _ hc => absurd hc List.not_mem_nil) cs hcs
  refine ⟨fun hempty => hne ?_, fun c hc => hsolid c (by simpa using hc)⟩
  simpa using congrArg String.toList hempty

/-- Characters that are no blanks go to the piece. -/
theorem wordsFrom_append {w : List Char} (hw : ∀ c ∈ w, isBlank c = false) :
    wordsFrom piece (w ++ cs) = wordsFrom (piece ++ w) cs := by
  induction w generalizing piece with
  | nil => rw [List.nil_append, List.append_nil]
  | cons c w ih =>
    obtain ⟨hc, hw⟩ := List.forall_mem_cons.mp hw
    rw [List.cons_append, wordsFrom, if_neg (by simp [hc]), ih hw, List.append_assoc]
    rfl

/-- Words with a blank after each. -/
def joined (ws : List String) : String :=
  String.ofList (ws.flatMap fun w => w.toList ++ [' '])

theorem words_joined {ws : List String} (h : ∀ w ∈ ws, IsWord w) : words (joined ws) = ws := by
  have hchars : wordsFrom [] (ws.flatMap fun w => w.toList ++ [' ']) = ws.map String.toList := by
    induction ws with
    | nil => rfl
    | cons w ws ih =>
      obtain ⟨hw, hws⟩ := List.forall_mem_cons.mp h
      have hblank : isBlank ' ' = true := by decide
      have hne : w.toList.isEmpty = false := by simpa using hw.nonempty
      rw [List.flatMap_cons, List.append_assoc, wordsFrom_append hw.solid, List.nil_append,
        List.singleton_append, wordsFrom, if_pos hblank, if_neg (by simp [hne]), ih hws,
        List.map_cons]
  rw [words, joined, String.toList_ofList, hchars, List.map_map]
  simp [Function.comp_def]

/-- A text cut into pieces, with blanks before, between and after them.  No piece is empty or
holds a blank, and each goes on up to a blank or to the end. -/
inductive Pieces : List Char → List (List Char) → Prop where
  | nil : Pieces [] []
  | blank {c : Char} {cs : List Char} {ws : List (List Char)} (blank : isBlank c = true)
    (rest : Pieces cs ws) : Pieces (c :: cs) ws
  | piece {w cs : List Char} {ws : List (List Char)} (nonempty : w ≠ [])
    (solid : ∀ c ∈ w, isBlank c = false) (ends : ∀ c ∈ cs.head?, isBlank c = true)
    (rest : Pieces cs ws) : Pieces (w ++ cs) (w :: ws)

/-- What is found is the pieces of the text that starts with the piece that has been read. -/
theorem pieces_wordsFrom (hpiece : ∀ c ∈ piece, isBlank c = false) :
    Pieces (piece ++ cs) (wordsFrom piece cs) := by
  have hnone : ∀ c ∈ ([] : List Char), isBlank c = false :=
    fun _ hc => absurd hc List.not_mem_nil
  induction cs generalizing piece with
  | nil =>
    cases piece with
    | nil => exact .nil
    | cons d piece =>
      exact .piece (List.cons_ne_nil d piece) hpiece (fun _ hc => by cases hc) .nil
  | cons c cs ih =>
    rw [wordsFrom]
    by_cases hc : isBlank c = true
    · have hrest : Pieces (c :: cs) (wordsFrom [] cs) := .blank hc (ih hnone)
      rw [if_pos hc]
      cases piece with
      | nil => exact hrest
      | cons d piece =>
        refine .piece (List.cons_ne_nil d piece) hpiece (fun b hb => ?_) hrest
        cases hb
        exact hc
    · have hmore : ∀ b ∈ piece ++ [c], isBlank b = false := by
        intro b hb
        rcases List.mem_append.mp hb with hb | hb
        · exact hpiece b hb
        · rw [List.mem_singleton.mp hb]
          exact eq_false_of_ne_true hc
      rw [if_neg hc, List.append_cons]
      exact ih hmore

/-- There is one way to cut a text. -/
theorem Pieces.wordsFrom_eq {ws : List (List Char)} (h : Pieces cs ws) : wordsFrom [] cs = ws := by
  induction h with
  | nil => rfl
  | blank hblank _ ih =>
    rw [wordsFrom, if_pos hblank]
    exact ih
  | @piece w cs ws hne hsolid hends _ ih =>
    have hempty : w.isEmpty = false := List.isEmpty_eq_false_iff.mpr hne
    rw [wordsFrom_append hsolid, List.nil_append]
    cases cs with
    | nil =>
      rw [← ih, wordsFrom, hempty]
      rfl
    | cons c cs =>
      have hblank : isBlank c = true := hends c rfl
      rw [wordsFrom, if_pos hblank] at ih ⊢
      rw [hempty, ← ih]
      rfl

/-- The words of a text are its pieces. -/
theorem words_eq_iff {s : String} {ws : List String} :
    words s = ws ↔ Pieces s.toList (ws.map String.toList) := by
  have hwords : (words s).map String.toList = wordsFrom [] s.toList := by
    rw [words, List.map_map]
    simp [Function.comp_def]
  constructor
  · intro h
    rw [← h, hwords]
    exact pieces_wordsFrom fun _ hc => absurd hc List.not_mem_nil
  · intro h
    have hmap : (words s).map String.toList = ws.map String.toList :=
      hwords.trans h.wordsFrom_eq
    exact List.map_injective_iff.mpr (fun _ _ hlist => String.toList_injective hlist) hmap

end ElementGrammar.Text
