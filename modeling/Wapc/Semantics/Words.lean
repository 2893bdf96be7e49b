import Mathlib.Data.List.Chain
import Mathlib.Data.List.DropRight
import Mathlib.Data.List.Forall2
import Mathlib.Data.List.Induction

/-!
# Words of a text

The words of a text are what blanks separate. Trimming a text keeps its words, and so does
replacing one blank by another. Words that a blank joins are told apart again. `blankAfter`
counts the empty lines that come after a number of words.
-/

namespace Wapc.Semantics.Words

universe u

variable {α : Type u} (isBlank : α → Bool)

/-- The words of a text, in order. -/
def words (text : List α) : List (List α) :=
  (text.splitOnP isBlank).filter (!·.isEmpty)

/-- Drop the blanks at both ends. -/
def trim (text : List α) : List α := (text.dropWhile isBlank).rdropWhile isBlank

@[simp] theorem words_nil : words isBlank [] = [] := rfl

variable {isBlank} {blank : α} {first second text : List α}

/-- A blank separates the words before it from those after it. -/
theorem words_append_cons (separates : isBlank blank) (first second : List α) :
    words isBlank (first ++ blank :: second) = words isBlank first ++ words isBlank second := by
  unfold words
  rw [List.splitOnP_append_cons first second separates, List.filter_append]

theorem words_cons (separates : isBlank blank) (text : List α) :
    words isBlank (blank :: text) = words isBlank text :=
  words_append_cons separates [] text

theorem words_concat (separates : isBlank blank) (text : List α) :
    words isBlank (text ++ [blank]) = words isBlank text := by
  rw [words_append_cons separates text [], words_nil, List.append_nil]

theorem words_blanks_append (blanks : ∀ c ∈ first, isBlank c) (second : List α) :
    words isBlank (first ++ second) = words isBlank second := by
  induction first with
  | nil => rfl
  | cons c first ih =>
    rw [List.cons_append, words_cons (blanks c (List.mem_cons_self ..))]
    exact ih fun c member => blanks c (List.mem_cons_of_mem _ member)

theorem words_append_blanks (blanks : ∀ c ∈ second, isBlank c) (first : List α) :
    words isBlank (first ++ second) = words isBlank first := by
  induction second using List.reverseRecOn with
  | nil => rw [List.append_nil]
  | append_singleton second c ih =>
    rw [← List.append_assoc, words_concat (blanks c (by simp))]
    exact ih fun c member => blanks c (by simp [member])

/-- A text that ends in a blank, or has none at all, does not run into the next one. -/
theorem words_append_of_getLast (ends : ∀ c ∈ first.getLast?, isBlank c) (second : List α) :
    words isBlank (first ++ second) = words isBlank first ++ words isBlank second := by
  induction first using List.reverseRecOn with
  | nil => rfl
  | append_singleton first c ih =>
    have separates : isBlank c := ends c (by simp)
    rw [List.append_assoc, List.singleton_append, words_append_cons separates,
      words_concat separates]

/-- A letter belongs to a word. -/
theorem words_cons_ne_nil {c : α} (letter : ¬ isBlank c) (text : List α) :
    words isBlank (c :: text) ≠ [] := by
  obtain ⟨part, parts, split⟩ :=
    List.exists_cons_of_ne_nil (List.splitOnP_ne_nil isBlank text)
  have front : (c :: text).splitOnP isBlank = (c :: part) :: parts := by
    rw [List.splitOnP_cons_eq_if_modifyHead, if_neg letter, split, List.modifyHead_cons]
  unfold words
  rw [front]
  simp

theorem words_eq_nil_iff : words isBlank text = [] ↔ ∀ c ∈ text, isBlank c := by
  induction text with
  | nil => simp
  | cons c text ih =>
    by_cases separates : isBlank c
    · rw [words_cons separates, ih]
      simp [separates]
    · refine ⟨fun none => absurd none (words_cons_ne_nil separates text), fun blanks => ?_⟩
      exact absurd (blanks c (List.mem_cons_self ..)) separates

@[simp] theorem words_trim (text : List α) :
    words isBlank (trim isBlank text) = words isBlank text := by
  have front : words isBlank (text.dropWhile isBlank) = words isBlank text := by
    conv_rhs => rw [← List.takeWhile_append_dropWhile (p := isBlank) (l := text)]
    exact (words_blanks_append (fun c member => List.mem_takeWhile_imp member) _).symm
  have back : words isBlank (trim isBlank text) = words isBlank (text.dropWhile isBlank) := by
    conv_rhs =>
      rw [← List.rdropWhile_append_rtakeWhile (p := isBlank) (l := text.dropWhile isBlank)]
    exact (words_append_blanks (fun c member => List.mem_rtakeWhile_imp member) _).symm
  exact back.trans front

theorem trim_sublist (text : List α) : (trim isBlank text).Sublist text :=
  (List.rdropWhile_prefix _ _).sublist.trans (List.dropWhile_sublist _)

/-- A trimmed text is empty only if it has no word. -/
theorem trim_eq_nil_iff : trim isBlank text = [] ↔ words isBlank text = [] := by
  constructor
  · intro empty
    rw [← words_trim, empty, words_nil]
  · intro none
    have blanks := words_eq_nil_iff.mp none
    have gone : text.dropWhile isBlank = [] := List.dropWhile_eq_nil_iff.mpr blanks
    rw [trim, gone, List.rdropWhile_nil]

/-- Texts that differ only in which blanks they have where have the same words. -/
theorem words_eq_of_forall₂ (alike : List.Forall₂ (fun a b => a = b ∨ isBlank a ∧ isBlank b)
    first second) : words isBlank first = words isBlank second := by
  suffices same : ∀ read, words isBlank (read ++ first) = words isBlank (read ++ second) from
    same []
  induction alike with
  | nil => exact fun _ => rfl
  | @cons a b first second heads tails ih =>
    intro read
    rcases heads with rfl | ⟨before, after⟩
    · simpa using ih (read ++ [a])
    · rw [words_append_cons before, words_append_cons after]
      exact congrArg _ (ih [])

/-! ### Words joined -/

theorem splitOnP_congr {other : α → Bool} (same : ∀ c ∈ text, isBlank c = other c) :
    text.splitOnP isBlank = text.splitOnP other := by
  induction text with
  | nil => rfl
  | cons c text ih =>
    rw [List.splitOnP_cons_eq_if_modifyHead, List.splitOnP_cons_eq_if_modifyHead,
      same c List.mem_cons_self, ih fun c member => same c (List.mem_cons_of_mem _ member)]

theorem words_congr {other : α → Bool} (same : ∀ c ∈ text, isBlank c = other c) :
    words isBlank text = words other text := by
  rw [words, words, splitOnP_congr same]

theorem mem_splitOnP {part : List α} (member : part ∈ text.splitOnP isBlank) :
    ∀ c ∈ part, c ∈ text ∧ isBlank c = false := by
  induction text generalizing part with
  | nil =>
    cases List.mem_singleton.mp member
    simp
  | cons c text ih =>
    rw [List.splitOnP_cons_eq_if_modifyHead] at member
    obtain ⟨first, rest, split⟩ :=
      List.exists_cons_of_ne_nil (List.splitOnP_ne_nil isBlank text)
    intro d inside
    by_cases separates : isBlank c
    · rw [if_pos separates] at member
      rcases List.mem_cons.mp member with rfl | later
      · cases inside
      · exact (ih later d inside).imp_left (List.mem_cons_of_mem _)
    · rw [if_neg separates, split, List.modifyHead_cons] at member
      rw [split] at ih
      rcases List.mem_cons.mp member with rfl | later
      · rcases List.mem_cons.mp inside with rfl | inside
        · exact ⟨List.mem_cons_self, by simpa using separates⟩
        · exact (ih List.mem_cons_self d inside).imp_left (List.mem_cons_of_mem _)
      · exact (ih (List.mem_cons_of_mem _ later) d inside).imp_left (List.mem_cons_of_mem _)

/-- A word of a text: not empty, and of letters. -/
theorem mem_words {word : List α} (member : word ∈ words isBlank text) :
    word ≠ [] ∧ ∀ c ∈ word, c ∈ text ∧ isBlank c = false := by
  obtain ⟨part, full⟩ := List.mem_filter.mp member
  exact ⟨by simpa using full, mem_splitOnP part⟩

theorem words_eq_singleton {word : List α} (full : word ≠ [])
    (letters : ∀ c ∈ word, isBlank c = false) : words isBlank word = [word] := by
  rw [words, List.splitOnP_eq_singleton letters]
  simpa using full

/-- Words that a blank joins are told apart again. -/
theorem words_intercalate {blank : α} (separates : isBlank blank) {parts : List (List α)}
    (proper : ∀ part ∈ parts, part ≠ [] ∧ ∀ c ∈ part, isBlank c = false) :
    words isBlank ([blank].intercalate parts) = parts := by
  induction parts with
  | nil => rfl
  | cons part parts ih =>
    obtain ⟨full, letters⟩ := proper part List.mem_cons_self
    have rest := ih fun part member => proper part (List.mem_cons_of_mem _ member)
    by_cases last : parts = []
    · rw [last, List.intercalate_singleton, words_eq_singleton full letters]
    · rw [List.intercalate_cons_of_ne_nil last, List.append_assoc, List.singleton_append,
        words_append_cons separates, words_eq_singleton full letters, rest, List.singleton_append]

/-- The words of a text have all of its letters. -/
theorem flatten_words (isBlank : α → Bool) (text : List α) :
    (words isBlank text).flatten = text.filter (!isBlank ·) := by
  rw [words, List.flatten_filter_not_isEmpty]
  induction text with
  | nil => rfl
  | cons c text ih =>
    obtain ⟨first, rest, split⟩ := List.exists_cons_of_ne_nil (List.splitOnP_ne_nil isBlank text)
    rw [split] at ih
    rw [List.splitOnP_cons_eq_if_modifyHead, List.filter_cons, ← ih, split]
    by_cases separates : isBlank c <;> simp [separates]

theorem mem_intercalate {between : List α} {words : List (List α)} {c : α}
    (member : c ∈ between.intercalate words) : (∃ word ∈ words, c ∈ word) ∨ c ∈ between := by
  induction words with
  | nil => cases member
  | cons word words ih =>
    by_cases last : words = []
    · rw [last, List.intercalate_singleton] at member
      exact .inl ⟨word, List.mem_cons_self, member⟩
    · rw [List.intercalate_cons_of_ne_nil last, List.mem_append, List.mem_append] at member
      rcases member with (inside | separator) | later
      · exact .inl ⟨word, List.mem_cons_self, inside⟩
      · exact .inr separator
      · refine (ih later).imp_left ?_
        rintro ⟨other, found, inside⟩
        exact ⟨other, List.mem_cons_of_mem _ found, inside⟩

theorem filter_intercalate {keep : α → Bool} {between : List α}
    (dropped : ∀ c ∈ between, keep c = false) (words : List (List α)) :
    (between.intercalate words).filter keep = words.flatten.filter keep := by
  induction words with
  | nil => rfl
  | cons word words ih =>
    by_cases last : words = []
    · rw [last, List.intercalate_singleton, List.flatten_singleton]
    · have gone : between.filter keep = [] := List.filter_eq_nil_iff.mpr (by simpa using dropped)
      rw [List.intercalate_cons_of_ne_nil last, List.filter_append, List.filter_append, gone, ih,
        List.append_nil, List.flatten_cons, List.filter_append]

/-- No blank follows another. -/
def Tidy (isBlank : α → Bool) (text : List α) : Prop :=
  text.IsChain fun a b => ¬ (isBlank a ∧ isBlank b)

/-- Where no blank follows another and none is at the end, only the first part can be empty. -/
theorem splitOnP_of_tidy (tidy : Tidy isBlank text) (full : text ≠ [])
    (ends : ∀ c ∈ text.getLast?, isBlank c = false) : ∃ first rest,
      text.splitOnP isBlank = first :: rest ∧ (∀ part ∈ rest, part ≠ []) ∧
        (first = [] → ∃ c ∈ text.head?, isBlank c) := by
  induction text with
  | nil => exact absurd rfl full
  | cons c text ih =>
    rw [List.splitOnP_cons_eq_if_modifyHead]
    cases text with
    | nil =>
      have letter : isBlank c = false := ends c rfl
      exact ⟨[c], [], by simp [letter], by simp, by simp⟩
    | cons d text =>
      obtain ⟨apart, later⟩ := List.isChain_cons_cons.mp tidy
      obtain ⟨first, rest, split, proper, begins⟩ :=
        ih later (List.cons_ne_nil _ _) (by simpa using ends)
      rw [split]
      by_cases separates : isBlank c
      · rw [if_pos separates]
        refine ⟨[], first :: rest, rfl, ?_, fun _ => ⟨c, rfl, separates⟩⟩
        rintro part member rfl
        rcases List.mem_cons.mp member with empty | member
        · obtain ⟨e, head, blank⟩ := begins empty.symm
          cases head
          exact apart ⟨separates, blank⟩
        · exact proper [] member rfl
      · rw [if_neg separates, List.modifyHead_cons]
        exact ⟨c :: first, rest, rfl, proper, by simp⟩

theorem Tidy.cons {c : α} (tidy : Tidy isBlank text)
    (apart : isBlank c → ∀ d ∈ text.head?, isBlank d = false) : Tidy isBlank (c :: text) := by
  refine List.isChain_cons.mpr ⟨?_, tidy⟩
  rintro d head ⟨blank, again⟩
  rw [apart blank d head] at again
  cases again

theorem Tidy.trim (tidy : Tidy isBlank text) : Tidy isBlank (trim isBlank text) := by
  have inside : Words.trim isBlank text <:+: text :=
    (List.rdropWhile_prefix _ _).isInfix.trans (List.dropWhile_suffix _).isInfix
  obtain ⟨before, after, split⟩ := inside
  rw [Tidy, ← split] at tidy
  exact tidy.left_of_append.right_of_append

theorem head?_trim : ∀ c ∈ (trim isBlank text).head?, isBlank c = false := by
  intro c head
  obtain ⟨after, split⟩ : trim isBlank text <+: text.dropWhile isBlank := List.rdropWhile_prefix _ _
  have prior : (text.dropWhile isBlank).head? = some c := by
    rw [← split, List.head?_append_of_ne_nil]
    · exact head
    · intro empty
      rw [empty] at head
      cases head
  have starts := List.head?_dropWhile_not isBlank text
  rw [prior] at starts
  exact starts

theorem getLast?_trim : ∀ c ∈ (trim isBlank text).getLast?, isBlank c = false := by
  intro c last
  have full : trim isBlank text ≠ [] := by
    intro empty
    rw [empty] at last
    cases last
  have ends := List.rdropWhile_last_not isBlank (text.dropWhile isBlank) full
  rw [List.getLast?_eq_some_getLast full] at last
  cases last
  exact Bool.eq_false_iff.mpr ends

/-- A tidy text without blanks at its ends is split into its words. -/
theorem splitOnP_trim (tidy : Tidy isBlank text) (full : trim isBlank text ≠ []) :
    (trim isBlank text).splitOnP isBlank = words isBlank text := by
  obtain ⟨first, rest, split, proper, begins⟩ :=
    splitOnP_of_tidy tidy.trim full getLast?_trim
  have whole : first ≠ [] := by
    intro empty
    obtain ⟨c, head, blank⟩ := begins empty
    rw [head?_trim c head] at blank
    cases blank
  rw [← words_trim, words, split, eq_comm, List.filter_eq_self]
  intro part member
  rcases List.mem_cons.mp member with rfl | member
  · simpa using whole
  · simpa using proper part member

/-! ### Empty lines -/

section Blank

variable (isBlank)

/-- The empty lines that have exactly `n` words before them. -/
def blankAfter : Nat → List (List α) → Nat
  | _, [] => 0
  | n, line :: lines =>
    let count := (words isBlank line).length
    let later := if count ≤ n then blankAfter (n - count) lines else 0
    if line = [] ∧ n = 0 then later + 1 else later

variable {isBlank} {n : Nat} {lines : List (List α)}

/-- The words of some lines, one line after the other. -/
abbrev wordsOf (isBlank : α → Bool) (lines : List (List α)) : List (List α) :=
  lines.flatMap (words isBlank)

theorem blankAfter_concat (n : Nat) (lines : List (List α)) (line : List α) :
    blankAfter isBlank n (lines ++ [line]) = blankAfter isBlank n lines +
      if line = [] ∧ (wordsOf isBlank lines).length = n then 1 else 0 := by
  induction lines generalizing n with
  | nil => cases n <;> simp [blankAfter]
  | cons head lines ih =>
    simp only [List.cons_append, blankAfter, wordsOf, List.flatMap_cons, List.length_append] at ih ⊢
    by_cases fits : (words isBlank head).length ≤ n
    · have shift : (List.flatMap (words isBlank) lines).length = n - (words isBlank head).length ↔
          (words isBlank head).length + (List.flatMap (words isBlank) lines).length = n := by omega
      simp only [if_pos fits, ih, shift]
      split <;> omega
    · have beyond : ¬ (line = [] ∧
          (words isBlank head).length + (List.flatMap (words isBlank) lines).length = n) := by
        omega
      simp only [if_neg fits, if_neg beyond, Nat.add_zero]

/-- No empty line comes after more words than there are. -/
theorem blankAfter_eq_zero (few : (wordsOf isBlank lines).length < n) :
    blankAfter isBlank n lines = 0 := by
  induction lines using List.reverseRecOn with
  | nil => rfl
  | append_singleton lines line ih =>
    rw [wordsOf, List.flatMap_append, List.length_append] at few
    have apart : ¬ (line = [] ∧ (wordsOf isBlank lines).length = n) := by
      rintro ⟨-, same⟩
      rw [wordsOf] at same
      omega
    rw [blankAfter_concat, if_neg apart, ih (by rw [wordsOf]; omega)]

/-- Empty lines at the front come before any word. -/
theorem blankAfter_dropWhile (some : n ≠ 0) (lines : List (List α)) :
    blankAfter isBlank n (lines.dropWhile (·.isEmpty)) = blankAfter isBlank n lines := by
  induction lines with
  | nil => rfl
  | cons line lines ih =>
    cases line with
    | nil =>
      rw [List.dropWhile_cons_of_pos rfl, ih]
      simp [blankAfter, some]
    | cons c line => rfl

/-- Lines that begin with one that is not empty have no empty line before the first word. -/
theorem blankAfter_zero_dropWhile (full : ∀ line ∈ lines, words isBlank line = [] → line = []) :
    blankAfter isBlank 0 (lines.dropWhile (·.isEmpty)) = 0 := by
  induction lines with
  | nil => rfl
  | cons line lines ih =>
    cases line with
    | nil => exact ih fun line member => full line (List.mem_cons_of_mem _ member)
    | cons c line =>
      have some : (words isBlank (c :: line)).length ≠ 0 := fun none =>
        absurd (full _ (List.mem_cons_self ..) (List.length_eq_zero_iff.mp none)) (by simp)
      rw [List.dropWhile_cons_of_neg (by simp)]
      simp [blankAfter, some]

end Blank

end Wapc.Semantics.Words
