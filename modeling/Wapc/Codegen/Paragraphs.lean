import Wapc.Codegen.Comment

/-!
# Paragraphs of comments

Blank lines of a description separate its paragraphs, and `formatComment` keeps newlines
that stand together for their sake. Its loop does not always treat a newline as one. When
the word in front of it does not fit the line, the newline is spent on wrapping, and when a
word does not fit a line that is still empty, the empty line is written. `Gap` is the place
of either between two words of the description.
-/

namespace Wapc.Codegen

open Semantics Words

namespace Reflow

variable {σ : Type}

/-- The word does not fit a line that has nothing on it, which is written all the same. -/
def Forced (wrapLength : Nat) (state : Reflow σ) : Prop :=
  state.Overflows wrapLength ∧ state.line.trim = []

instance (wrapLength : Nat) (state : Reflow σ) : Decidable (state.Forced wrapLength) :=
  inferInstanceAs (Decidable (_ ∧ _))

end Reflow

/-- What the loop carries after some characters of the text whose lines are joined. -/
def loopAfter (wrapLength : Nat) (text : JsString) (count : Nat) : Reflow (List JsString) :=
  Reflow.reads addContent wrapLength [] ((joinLines text).take count)

/-- The white space between two words of a text, or in front of its first. -/
structure Gap (text : JsString) where
  before : JsString
  separator : JsString
  next : UInt16
  rest : JsString
  split : before ++ separator ++ next :: rest = text
  blank : ∀ c ∈ separator, isWhiteSpace c
  apart : before ≠ [] → separator ≠ []
  ends : ∀ c ∈ before.getLast?, ¬ isWhiteSpace c
  starts : ¬ isWhiteSpace next

namespace Gap

variable {text : JsString} (gap : Gap text) (wrapLength : Nat)

/-- The gap has no blank line. -/
def Closed : Prop :=
  if gap.before = [] then newline ∉ gap.separator else gap.separator.count newline ≤ 1

/-- What the loop reads as one word after the gap. -/
def token : JsString := (gap.next :: gap.rest).takeWhile fun c => !decide (IsSeparator c)

/-- What the loop carries after some characters of the gap and the token. -/
def loopAt (count : Nat) : Reflow (List JsString) :=
  loopAfter wrapLength text (gap.before.length + count)

/-- The blank lines of some lines in the place of the gap. -/
def blankLines (lines : List JsString) : Nat :=
  blankAfter isWhiteSpace gap.before.words.length lines

/-- A gap of newlines between two words has its blank lines, and one without a blank line
has none. -/
def Preserved (lines : List JsString) : Prop :=
  (gap.before ≠ [] → ∀ k, 2 ≤ k → gap.separator = List.replicate k newline →
    gap.blankLines lines = k - 1) ∧
  (gap.Closed → gap.blankLines lines = 0)

/-- The first of the newlines is spent on wrapping. -/
def Swallows : Prop := (gap.loopAt wrapLength 0).Overflows wrapLength

/-- The token is forced to a line of its own, under an empty one. With a swallowed newline
there may be a space in front of the token. -/
def Adds : Prop :=
  wrapLength < gap.token.length ∨
    gap.Swallows wrapLength ∧ gap.separator.length = 2 ∧
      wrapLength ≤ (gap.loopAt wrapLength 0).word.trim.length ∧ gap.token.length = wrapLength

/-- Newlines are swallowed only where an empty line is added, and elsewhere the wrapping
branch finds no empty line. An empty line under an empty comment is not seen without a
prefix. -/
def Kept (linePrefix : JsString) : Prop :=
  (gap.before ≠ [] → ∀ k, 2 ≤ k → gap.separator = List.replicate k newline →
    (gap.Swallows wrapLength ↔ gap.Adds wrapLength)) ∧
  (gap.Closed → gap.before ≠ [] ∨ linePrefix ≠ [] →
    ∀ count ≤ gap.separator.length + gap.token.length,
      (gap.before ≠ [] → ∃ c ∈ gap.separator.take count, IsSeparator c) →
        ¬ (gap.loopAt wrapLength count).Forced wrapLength)

end Gap

/-- The output has the blank lines of the text, and no others. -/
def PreservesParagraphs (linePrefix : JsString) (text : CommentText) (wrapLength : Nat) : Prop :=
  ∀ gap : Gap text.textValue,
    gap.Preserved (contents linePrefix (formatComment linePrefix text wrapLength))

/-! ### Blank lines along the loop -/

/-- A line that is added counts if it is blank and has its number of words before it. -/
theorem blankAfter_addContent (n : Nat) (contents : List JsString) (line : JsString) :
    blankAfter isWhiteSpace n (addContent contents line) = blankAfter isWhiteSpace n contents +
      if line.words = [] ∧ (wordsOf isWhiteSpace contents).length = n then 1 else 0 := by
  have blank : line.trim = [] ↔ line.words = [] := trim_eq_nil_iff
  rw [addContent, blankAfter_concat]
  simp only [blank]

theorem blankAfter_addContent_of_ne {n : Nat} {contents : List JsString} {line : JsString}
    (apart : line.words = [] → (wordsOf isWhiteSpace contents).length ≠ n) :
    blankAfter isWhiteSpace n (addContent contents line) = blankAfter isWhiteSpace n contents := by
  rw [blankAfter_addContent, if_neg fun counts => apart counts.1 counts.2, Nat.add_zero]

namespace Reflow

/-- Letters only make the word longer. -/
theorem foldl_letters {σ : Type} {addLine : σ → JsString → σ} {wrapLength : Nat}
    (state : Reflow σ) {letters : JsString} (free : ∀ c ∈ letters, ¬ IsSeparator c) :
    letters.foldl (read addLine wrapLength) state =
      { state with word := state.word ++ letters } := by
  induction letters generalizing state with
  | nil => rw [List.append_nil]; rfl
  | cons c letters ih =>
    rw [List.foldl_cons, read_letter (free c (List.mem_cons_self ..)),
      ih _ fun c' member => free c' (List.mem_cons_of_mem _ member)]
    simp

namespace Reading

variable {wrapLength n : Nat} {done token : JsString} {state : Reflow (List JsString)} {c : UInt16}
  (reading : Reading wrapLength done token state)
include reading

theorem words_length : (wordsOf isWhiteSpace state.comment).length + state.line.words.length =
    done.words.length := by
  rw [← reading.complete, List.length_append]

theorem letters_append {letters : JsString} (free : ∀ c ∈ letters, ¬ IsSeparator c) :
    Reading wrapLength done (token ++ letters) { state with word := state.word ++ letters } where
  word := by
    rcases reading.word with front | ⟨bare, empty⟩
    · exact .inl (by rw [front]; rfl)
    · exact .inr ⟨by rw [bare], empty⟩
  separated := reading.separated
  letters := by
    intro c member
    exact (List.mem_append.mp member).elim (reading.letters c) (free c)
  complete := reading.complete
  line := reading.line
  lines := reading.lines

/-- Before a word is laid out there is no line after it. -/
theorem blankAfter_few (few : done.words.length < n) :
    blankAfter isWhiteSpace n state.comment = 0 := by
  have total := reading.words_length
  exact blankAfter_eq_zero (by omega)

/-- Whatever is read next, the loop goes on with at least the words it has laid out. -/
theorem read (c : UInt16) : ∃ done' token',
    Reading wrapLength done' token' (state.read addContent wrapLength c) ∧
      done.words.length ≤ done'.words.length := by
  by_cases separator : IsSeparator c
  · refine ⟨_, _, reading.separator separator, ?_⟩
    have total : (done ++ token ++ [c]).words = (done ++ token).words :=
      words_concat separator.isWhiteSpace _
    rw [total, reading.done_token_words, List.length_append]
    omega
  · exact ⟨_, _, reading.letter separator, Nat.le_refl _⟩

/-- Once more words are laid out, no line is added in their place. -/
theorem blankAfter_read (settled : n < done.words.length) (c : UInt16) :
    blankAfter isWhiteSpace n (state.read addContent wrapLength c).comment =
      blankAfter isWhiteSpace n state.comment := by
  have total := reading.words_length
  have apart : state.line.words = [] → (wordsOf isWhiteSpace state.comment).length ≠ n := by
    intro blank
    rw [blank, List.length_nil] at total
    omega
  by_cases separator : IsSeparator c
  · by_cases overflows : state.Overflows wrapLength
    · rw [read_overflow separator overflows]
      exact blankAfter_addContent_of_ne apart
    · rcases separator with rfl | rfl
      · rw [read_space overflows]
      · rw [read_newline overflows]
        refine blankAfter_addContent_of_ne fun blank => apart ?_
        rw [reading.line_word_words] at blank
        exact (List.append_eq_nil_iff.mp blank).1
  · rw [read_letter separator]

/-- The line that the wrapping branch adds is blank where the word is forced. -/
theorem blankAfter_overflow (overflows : state.Overflows wrapLength) :
    blankAfter isWhiteSpace n (addContent state.comment state.line) =
      blankAfter isWhiteSpace n state.comment +
        if state.Forced wrapLength ∧ done.words.length = n then 1 else 0 := by
  have total := reading.words_length
  have same : (state.line.words = [] ∧ (wordsOf isWhiteSpace state.comment).length = n) ↔
      state.Forced wrapLength ∧ done.words.length = n := by
    constructor
    · rintro ⟨blank, place⟩
      refine ⟨⟨overflows, trim_eq_nil_iff.mpr blank⟩, ?_⟩
      rw [blank, List.length_nil] at total
      omega
    · rintro ⟨⟨-, empty⟩, place⟩
      have blank : state.line.words = [] := trim_eq_nil_iff.mp empty
      rw [blank, List.length_nil] at total
      exact ⟨blank, by omega⟩
  rw [blankAfter_addContent]
  simp only [same]

/-- A line that ends with a word is not blank. -/
theorem blankAfter_line_word (word : token.words = [] → n < done.words.length) :
    blankAfter isWhiteSpace n (addContent state.comment (state.line ++ state.word)) =
      blankAfter isWhiteSpace n state.comment := by
  have total := reading.words_length
  refine blankAfter_addContent_of_ne fun blank => ?_
  rw [reading.line_word_words, List.append_eq_nil_iff] at blank
  rw [blank.1, List.length_nil] at total
  have settled := word blank.2
  omega

/-- All that the end of the text can do in the place after `n` words. -/
theorem blankAfter_finish (reached : n < done.words.length + token.words.length) :
    blankAfter isWhiteSpace n (state.finish addContent wrapLength) =
      blankAfter isWhiteSpace n state.comment +
        if state.Forced wrapLength ∧ done.words.length = n then 1 else 0 := by
  unfold Reflow.finish
  by_cases overflows : state.Overflows wrapLength
  · simp only [if_pos overflows]
    rw [← reading.blankAfter_overflow overflows]
    split
    · refine blankAfter_addContent_of_ne fun blank => ?_
      rw [JsString.words_trim, reading.word_words] at blank
      rw [wordsOf_addContent, reading.complete]
      rw [blank, List.length_nil] at reached
      omega
    · rfl
  · have unforced : ¬ (state.Forced wrapLength ∧ done.words.length = n) :=
      fun counts => overflows counts.1.1
    simp only [if_neg overflows, if_neg unforced, Nat.add_zero]
    split
    · refine reading.blankAfter_line_word fun none => ?_
      rw [none, List.length_nil] at reached
      omega
    · rfl

/-- Once more words are laid out, the place has its lines. -/
theorem blankAfter_settled (settled : n < done.words.length) (rest : JsString) :
    blankAfter isWhiteSpace n
        ((rest.foldl (Reflow.read addContent wrapLength) state).finish addContent wrapLength) =
      blankAfter isWhiteSpace n state.comment := by
  induction rest generalizing done token state with
  | nil =>
    rw [List.foldl_nil, reading.blankAfter_finish (Nat.lt_add_right _ settled),
      if_neg fun counts => absurd counts.2 (Nat.ne_of_gt settled), Nat.add_zero]
  | cons c rest ih =>
    obtain ⟨done', token', next, grows⟩ := reading.read c
    rw [List.foldl_cons, ih next (Nat.lt_of_lt_of_le settled grows),
      reading.blankAfter_read settled]

/-- Where a token with a further word ends, its place gets a blank line exactly if the token
is forced to the next line. -/
theorem blankAfter_token
    (reached : n < done.words.length + token.words.length) {rest : JsString}
    (ends : ∀ c ∈ rest.head?, IsSeparator c) :
    blankAfter isWhiteSpace n
        ((rest.foldl (Reflow.read addContent wrapLength) state).finish addContent wrapLength) =
      blankAfter isWhiteSpace n state.comment +
        if state.Forced wrapLength ∧ done.words.length = n then 1 else 0 := by
  cases rest with
  | nil => exact reading.blankAfter_finish reached
  | cons c rest =>
    have separator : IsSeparator c := ends c rfl
    have settled : n < (done ++ token ++ [c]).words.length := by
      have total : (done ++ token ++ [c]).words = (done ++ token).words :=
        words_concat separator.isWhiteSpace _
      rw [total, reading.done_token_words, List.length_append]
      exact reached
    rw [List.foldl_cons, (reading.separator separator).blankAfter_settled settled]
    by_cases overflows : state.Overflows wrapLength
    · rw [read_overflow separator overflows]
      exact reading.blankAfter_overflow overflows
    · rw [if_neg fun counts => overflows counts.1.1, Nat.add_zero]
      rcases separator with rfl | rfl
      · rw [read_space overflows]
      · rw [read_newline overflows]
        refine reading.blankAfter_line_word fun none => ?_
        rw [none, List.length_nil] at reached
        omega

end Reading

end Reflow

/-! ### Places without a blank line -/

namespace Reflow

/-- The blank lines after `n` words, when the loop goes on with `rest`. -/
def blankLinesWith (wrapLength n : Nat) (state : Reflow (List JsString)) (rest : JsString) : Nat :=
  blankAfter isWhiteSpace n
    ((rest.foldl (read addContent wrapLength) state).finish addContent wrapLength)

/-- The loop forces no word while it reads on. -/
def Clear (wrapLength : Nat) (state : Reflow (List JsString)) (ahead : JsString) : Prop :=
  ∀ count ≤ ahead.length,
    ¬ ((ahead.take count).foldl (read addContent wrapLength) state).Forced wrapLength

section Clear

variable {wrapLength : Nat} {state : Reflow (List JsString)} {c : UInt16}

theorem clear_nil : Clear wrapLength state [] ↔ ¬ state.Forced wrapLength := by
  unfold Clear
  simp

theorem clear_cons (c : UInt16) (ahead : JsString) : Clear wrapLength state (c :: ahead) ↔
    ¬ state.Forced wrapLength ∧ Clear wrapLength (state.read addContent wrapLength c) ahead := by
  constructor
  · intro clear
    refine ⟨clear 0 (Nat.zero_le _), fun count within => ?_⟩
    exact clear (count + 1) (Nat.succ_le_succ within)
  · rintro ⟨here, later⟩ count within
    cases count with
    | zero => exact here
    | succ count => exact later count (Nat.le_of_succ_le_succ within)

/-- On an empty line, the words that are forced are those that are too long. -/
theorem forced_empty_iff (contents : List JsString) (word : JsString) :
    Forced wrapLength ⟨contents, [], word⟩ ↔ wrapLength < word.length := by
  have overflows : Overflows wrapLength ⟨contents, [], word⟩ ↔ wrapLength < word.length := by
    rw [Overflows, List.length_nil, Nat.zero_add]
  exact (and_iff_left rfl).trans overflows

/-- A forced word stays forced when it gets longer. -/
theorem Forced.letter (forced : state.Forced wrapLength) (letter : ¬ IsSeparator c) :
    (state.read addContent wrapLength c).Forced wrapLength := by
  rw [read_letter letter]
  refine ⟨?_, forced.2⟩
  have overflows : state.line.length + state.word.length > wrapLength := forced.1
  change state.line.length + (state.word ++ [c]).length > wrapLength
  rw [List.length_append]
  omega

theorem clear_letter (letter : ¬ IsSeparator c) (ahead : JsString) :
    Clear wrapLength state (c :: ahead) ↔
      Clear wrapLength (state.read addContent wrapLength c) ahead := by
  rw [clear_cons]
  refine ⟨fun clear => clear.2, fun clear => ⟨fun forced => ?_, clear⟩⟩
  exact clear 0 (Nat.zero_le _) (forced.letter letter)

theorem clear_letters (wrapLength : Nat) (state : Reflow (List JsString)) {letters : JsString}
    (free : ∀ c ∈ letters, ¬ IsSeparator c)
    (ahead : JsString) : Clear wrapLength state (letters ++ ahead) ↔
      Clear wrapLength (letters.foldl (read addContent wrapLength) state) ahead := by
  induction letters generalizing state with
  | nil => rfl
  | cons c letters ih =>
    rw [List.cons_append, clear_letter (free c (List.mem_cons_self ..)),
      ih _ fun c' member => free c' (List.mem_cons_of_mem _ member)]
    rfl

end Clear

section Place

variable {wrapLength n : Nat} {done token letters rest : JsString}
  {state : Reflow (List JsString)} (reading : Reading wrapLength done token state)

include reading

/-- A token with a further word is forced to the next line, or leaves no blank line. -/
theorem Reading.blankLinesWith_letters (laid : done.words.length = n)
    (free : ∀ c ∈ letters, ¬ IsSeparator c) (word : letters.words ≠ [])
    (ends : ∀ c ∈ rest.head?, IsSeparator c) :
    blankLinesWith wrapLength n state (letters ++ rest) = blankAfter isWhiteSpace n state.comment +
      if Forced wrapLength { state with word := state.word ++ letters } then 1 else 0 := by
  have reached : n < done.words.length + (token ++ letters).words.length := by
    have further : (token ++ letters).words ≠ [] := by
      intro empty
      refine word (words_eq_nil_iff.mpr fun c member => ?_)
      exact words_eq_nil_iff.mp empty c (List.mem_append_right _ member)
    have more := List.length_pos_iff.mpr further
    omega
  have counts := (reading.letters_append free).blankAfter_token reached ends
  rw [blankLinesWith, List.foldl_append, foldl_letters state free, counts]
  simp only [laid, and_true]

/-- White space without a newline, and the token after it, leave a blank line exactly where
a word is forced. -/
theorem Reading.blankLinesWith_spaces {white : JsString}
    (laid : done.words.length = n) (none : token.words = [])
    (blank : ∀ c ∈ white, isWhiteSpace c) (flat : newline ∉ white)
    (free : ∀ c ∈ letters, ¬ IsSeparator c) (word : letters.words ≠ [])
    (ends : ∀ c ∈ rest.head?, IsSeparator c) :
    blankAfter isWhiteSpace n state.comment ≤
        blankLinesWith wrapLength n state (white ++ letters ++ rest) ∧
      (blankLinesWith wrapLength n state (white ++ letters ++ rest) =
          blankAfter isWhiteSpace n state.comment ↔ Clear wrapLength state (white ++ letters)) := by
  induction white generalizing done token state with
  | nil =>
    have counts := reading.blankLinesWith_letters laid free word ends
    have clear := clear_letters wrapLength state free []
    rw [List.append_nil, clear_nil, foldl_letters state free] at clear
    rw [List.nil_append, clear, counts]
    split
    · rename_i forced
      exact ⟨Nat.le_succ _, fun same => absurd same (by omega),
        fun unforced => absurd forced unforced⟩
    · rename_i unforced
      exact ⟨Nat.le_refl _, fun _ => unforced, fun _ => rfl⟩
  | cons c white ih =>
    have blank' := fun c' member => blank c' (List.mem_cons_of_mem c member)
    have flat' : newline ∉ white := fun member => flat (List.mem_cons_of_mem c member)
    have moves : blankLinesWith wrapLength n state (c :: white ++ letters ++ rest) =
        blankLinesWith wrapLength n (state.read addContent wrapLength c)
          (white ++ letters ++ rest) := rfl
    rw [moves, List.cons_append]
    by_cases separator : IsSeparator c
    · obtain rfl : c = space :=
        separator.resolve_right fun same => flat (by rw [same]; exact List.mem_cons_self ..)
      have laid' : (done ++ token ++ [space]).words.length = n := by
        have total : (done ++ token ++ [space]).words = (done ++ token).words :=
          words_concat space_isWhiteSpace _
        rw [total, reading.done_token_words, none, List.append_nil, laid]
      obtain ⟨grows, same⟩ := ih (reading.separator separator) laid' rfl blank' flat'
      have added : blankAfter isWhiteSpace n (state.read addContent wrapLength space).comment =
          blankAfter isWhiteSpace n state.comment + if state.Forced wrapLength then 1 else 0 := by
        by_cases overflows : state.Overflows wrapLength
        · rw [read_overflow separator overflows]
          change blankAfter isWhiteSpace n (addContent state.comment state.line) = _
          rw [reading.blankAfter_overflow overflows]
          simp only [laid, and_true]
        · rw [read_space overflows, if_neg fun forced => overflows forced.1, Nat.add_zero]
      rw [clear_cons, ← same]
      by_cases forced : state.Forced wrapLength
      · rw [if_pos forced] at added
        exact ⟨by omega, fun kept => absurd kept (by omega), fun clear => absurd forced clear.1⟩
      · rw [if_neg forced, Nat.add_zero] at added
        rw [added] at grows ⊢
        exact ⟨grows, fun kept => ⟨forced, kept⟩, fun clear => clear.2⟩
    · have none' : (token ++ [c]).words = [] :=
        (words_concat (blank c (List.mem_cons_self ..)) token).trans none
      have next := ih (reading.letter separator) laid none' blank' flat'
      rw [clear_letter separator]
      rw [read_letter separator] at next ⊢
      exact next

end Place

/-! ### Places of paragraphs -/

/-- A newline after what is laid out lays out no word. -/
theorem laid_newline {n : Nat} {done : JsString} (laid : done.words.length = n) :
    (done ++ [] ++ [newline]).words.length = n := by
  rw [List.append_nil, ← laid]
  exact congrArg List.length (words_concat newline_isWhiteSpace done)

section Newlines

variable {wrapLength n : Nat} {done token letters rest : JsString} {contents : List JsString}
  (free : ∀ c ∈ letters, ¬ IsSeparator c) (word : letters.words ≠ [])
  (ends : ∀ c ∈ rest.head?, IsSeparator c)
include free word ends

/-- Newlines after the end of a line are blank lines, and a token that is too long for a
line adds another. -/
theorem Reading.blankLinesWith_newlines (reading : Reading wrapLength done [] ⟨contents, [], []⟩)
    (laid : done.words.length = n) (k : Nat) :
    blankLinesWith wrapLength n ⟨contents, [], []⟩ (List.replicate k newline ++ letters ++ rest) =
      blankAfter isWhiteSpace n contents + k + if wrapLength < letters.length then 1 else 0 := by
  induction k generalizing done contents with
  | zero =>
    have forced : Forced wrapLength (⟨contents, [], [] ++ letters⟩ : Reflow (List JsString)) ↔
        wrapLength < letters.length := forced_empty_iff contents letters
    have counts := reading.blankLinesWith_letters laid free word ends
    simp only [forced] at counts
    exact counts
  | succ k ih =>
    have fits : ¬ Overflows wrapLength (⟨contents, [], []⟩ : Reflow (List JsString)) :=
      Nat.not_lt_zero _
    have next := reading.separator (c := newline) (.inr rfl)
    have moves : blankLinesWith wrapLength n ⟨contents, [], []⟩
        (List.replicate (k + 1) newline ++ letters ++ rest) =
        blankLinesWith wrapLength n (Reflow.read addContent wrapLength ⟨contents, [], []⟩ newline)
          (List.replicate k newline ++ letters ++ rest) := rfl
    rw [read_newline fits] at moves next
    have counted : blankAfter isWhiteSpace n (addContent contents ([] ++ [])) =
        blankAfter isWhiteSpace n contents + 1 := by
      have total := reading.words_length
      rw [blankAfter_addContent, if_pos ⟨rfl, by simpa using total.trans laid⟩]
    rw [moves, ih next (laid_newline laid), counted]
    omega

/-- A space that is left on an empty line counts for the token where no newline comes first. -/
theorem Reading.blankLinesWith_left_space (positive : 1 ≤ wrapLength)
    (reading : Reading wrapLength done [] ⟨contents, [], [space]⟩)
    (laid : done.words.length = n) (none : blankAfter isWhiteSpace n contents = 0) (k : Nat) :
    blankLinesWith wrapLength n ⟨contents, [], [space]⟩
        (List.replicate k newline ++ letters ++ rest) =
      k + if wrapLength < letters.length ∨ k = 0 ∧ letters.length = wrapLength then 1 else 0 := by
  cases k with
  | zero =>
    have forced : Forced wrapLength (⟨contents, [], [space] ++ letters⟩ : Reflow (List JsString)) ↔
        wrapLength < letters.length ∨ 0 = 0 ∧ letters.length = wrapLength := by
      rw [forced_empty_iff, List.length_append, List.length_singleton]
      omega
    refine (reading.blankLinesWith_letters laid free word ends).trans ?_
    simp only [forced, none]
  | succ k =>
    have fits : ¬ Overflows wrapLength (⟨contents, [], [space]⟩ : Reflow (List JsString)) :=
      Nat.not_lt_of_le positive
    have next := reading.separator (c := newline) (.inr rfl)
    have moves : blankLinesWith wrapLength n ⟨contents, [], [space]⟩
        (List.replicate (k + 1) newline ++ letters ++ rest) =
        blankLinesWith wrapLength n
          (Reflow.read addContent wrapLength ⟨contents, [], [space]⟩ newline)
          (List.replicate k newline ++ letters ++ rest) := rfl
    rw [read_newline fits] at moves next
    have counted : blankAfter isWhiteSpace n (addContent contents ([] ++ [space])) = 1 := by
      have place : (wordsOf isWhiteSpace contents).length = n := reading.words_length.trans laid
      rw [blankAfter_addContent, none, if_pos ⟨words_cons space_isWhiteSpace [], place⟩]
    rw [moves, Reading.blankLinesWith_newlines free word ends next (laid_newline laid), counted]
    split <;> split <;> omega

/-- After the first newline was spent on wrapping, the word is on a line of its own. -/
theorem Reading.blankLinesWith_swallowed {line : JsString} (positive : 1 ≤ wrapLength)
    (reading : Reading wrapLength done [] ⟨contents, line, [space]⟩)
    (laid : done.words.length = n) (last : line.words ≠ [])
    (none : blankAfter isWhiteSpace n contents = 0) (k : Nat) :
    blankLinesWith wrapLength n ⟨contents, line, [space]⟩
        (List.replicate (k + 1) newline ++ letters ++ rest) = k + 1 ↔
      wrapLength < letters.length ∨
        k = 0 ∧ wrapLength ≤ line.length ∧ letters.length = wrapLength := by
  have next := reading.separator (c := newline) (.inr rfl)
  have moves : blankLinesWith wrapLength n ⟨contents, line, [space]⟩
      (List.replicate (k + 1) newline ++ letters ++ rest) =
      blankLinesWith wrapLength n
        (Reflow.read addContent wrapLength ⟨contents, line, [space]⟩ newline)
        (List.replicate k newline ++ letters ++ rest) := rfl
  have laid' := laid_newline laid
  by_cases overflows : Overflows wrapLength (⟨contents, line, [space]⟩ : Reflow (List JsString))
  · -- the second newline ends the line as well, and the space is left
    rw [read_overflow (.inr rfl) overflows] at moves next
    have full : wrapLength ≤ line.length := Nat.le_of_lt_succ overflows
    have ended : blankAfter isWhiteSpace n (addContent contents line) = 0 := by
      rw [blankAfter_addContent_of_ne fun blank => absurd blank last, none]
    have left := Reading.blankLinesWith_left_space free word ends positive next laid' ended k
    refine (Eq.congr_left (moves.trans left)).trans ?_
    split <;> omega
  · -- the second newline ends the line with the word
    rw [read_newline overflows] at moves next
    have short : line.length < wrapLength := Nat.lt_of_not_le fun full =>
      overflows (Nat.lt_succ_of_le full)
    have ended : blankAfter isWhiteSpace n (addContent contents (line ++ [space])) = 0 := by
      have word' : (line ++ [space]).words = line.words := words_concat space_isWhiteSpace line
      rw [blankAfter_addContent_of_ne fun blank => absurd (word'.symm.trans blank) last, none]
    rw [moves, Reading.blankLinesWith_newlines free word ends next laid', ended]
    split <;> omega

/-- Two or more newlines after a word are its blank lines exactly if the first is swallowed
where the token after them adds a line. -/
theorem Reading.blankLinesWith_paragraph {state : Reflow (List JsString)}
    (positive : 1 ≤ wrapLength) (reading : Reading wrapLength done token state)
    (last : token.words ≠ []) (place : done.words.length + token.words.length = n) (k : Nat) :
    blankLinesWith wrapLength n state (List.replicate (k + 2) newline ++ letters ++ rest) = k + 1 ↔
      (state.Overflows wrapLength ↔ wrapLength < letters.length ∨
        state.Overflows wrapLength ∧ k = 0 ∧ wrapLength ≤ state.word.trim.length ∧
          letters.length = wrapLength) := by
  have few : done.words.length < n := by
    have some := List.length_pos_iff.mpr last
    omega
  have start : blankAfter isWhiteSpace n state.comment = 0 := reading.blankAfter_few few
  have first := reading.separator (c := newline) (.inr rfl)
  have laid : (done ++ token ++ [newline]).words.length = n := by
    have total : (done ++ token ++ [newline]).words = (done ++ token).words :=
      words_concat newline_isWhiteSpace _
    rw [total, reading.done_token_words, List.length_append, place]
  have moves : blankLinesWith wrapLength n state
      (List.replicate (k + 2) newline ++ letters ++ rest) =
      blankLinesWith wrapLength n (state.read addContent wrapLength newline)
        (List.replicate (k + 1) newline ++ letters ++ rest) := rfl
  by_cases overflows : state.Overflows wrapLength
  · -- the first newline ends the line in front of the word
    rw [read_overflow (.inr rfl) overflows] at moves first
    have wrapped : blankAfter isWhiteSpace n (addContent state.comment state.line) = 0 := by
      rw [reading.blankAfter_overflow overflows, start,
        if_neg fun counts => absurd counts.2 (Nat.ne_of_lt few)]
    have others : state.word.trim.words ≠ [] := by
      rw [JsString.words_trim, reading.word_words]
      exact last
    rw [moves, Reading.blankLinesWith_swallowed free word ends positive first laid others wrapped]
    simp only [overflows, true_and, true_iff]
  · -- the first newline ends the line with the word
    rw [read_newline overflows] at moves first
    have ended : blankAfter isWhiteSpace n (addContent state.comment (state.line ++ state.word)) =
        0 := by
      rw [reading.blankAfter_line_word fun none => absurd none last, start]
    rw [moves, Reading.blankLinesWith_newlines free word ends first laid, ended]
    simp only [overflows, false_and, or_false, false_iff, Nat.zero_add]
    split
    · rename_i long
      exact ⟨fun same => absurd same (by omega), fun short => absurd long short⟩
    · rename_i short
      exact ⟨fun _ => short, fun _ => rfl⟩

end Newlines

end Reflow

/-! ### The gaps of the joined text -/

section Join

variable {l : UInt16}

theorem joinLines_eq (text : JsString) : joinLines text = replaceNewlines newline text := by
  cases text with
  | nil => rfl
  | cons first rest =>
    cases rest with
    | nil => rfl
    | cons next rest => simp [joinLines, replaceNewlines]

/-- A character that is not a newline keeps what is before it from what is after it. -/
theorem replaceNewlines_append (letter : l ≠ newline) (previous : UInt16) (text rest : JsString) :
    replaceNewlines previous (text ++ l :: rest) =
      replaceNewlines previous (text ++ [l]) ++ replaceNewlines l rest := by
  induction text generalizing previous with
  | nil => cases rest <;> simp [replaceNewlines, letter]
  | cons c text ih =>
    cases text with
    | nil => simpa [replaceNewlines] using ih _
    | cons next text => simpa [replaceNewlines] using ih _

/-- What becomes of a character that has another after it. -/
def replaced (previous c next : UInt16) : UInt16 :=
  if c = newline ∧ previous ≠ newline ∧ next ≠ newline then space else c

theorem replaced_standsFor (previous c next : UInt16) : StandsFor (replaced previous c next) c := by
  unfold replaced
  split
  · rename_i alone
    exact .inr ⟨rfl, alone.1⟩
  · exact .inl rfl

/-- A text to which a character is added has a next character. -/
theorem replaceNewlines_cons_concat (previous c l : UInt16) (text : JsString) :
    ∃ next ∈ (text ++ [l]).head?, replaceNewlines previous (c :: (text ++ [l])) =
      replaced previous c next :: replaceNewlines (replaced previous c next) (text ++ [l]) := by
  cases text with
  | nil => exact ⟨l, rfl, rfl⟩
  | cons next text => exact ⟨next, rfl, rfl⟩

theorem replaceNewlines_concat (previous l : UInt16) (text : JsString) :
    ∃ joined, replaceNewlines previous (text ++ [l]) = joined ++ [l] ∧
      List.Forall₂ StandsFor joined text := by
  induction text generalizing previous with
  | nil => exact ⟨[], rfl, .nil⟩
  | cons c text ih =>
    obtain ⟨next, -, step⟩ := replaceNewlines_cons_concat previous c l text
    obtain ⟨joined, same, alike⟩ := ih (replaced previous c next)
    refine ⟨replaced previous c next :: joined, ?_, .cons (replaced_standsFor ..) alike⟩
    rw [List.cons_append, step, same, List.cons_append]

/-- Newlines that stand together stay. -/
theorem replaceNewlines_replicate (previous l : UInt16) (k : Nat) :
    replaceNewlines previous (List.replicate (k + 2) newline ++ [l]) =
      List.replicate (k + 2) newline ++ [l] := by
  have after : ∀ k, replaceNewlines newline (List.replicate k newline ++ [l]) =
      List.replicate k newline ++ [l] := by
    intro k
    induction k with
    | zero => rfl
    | succ k ih =>
      cases k with
      | zero => rfl
      | succ k => simpa [replaceNewlines, List.replicate_succ] using ih
  simpa [replaceNewlines, List.replicate_succ] using after (k + 1)

/-- A newline that stands alone goes. -/
theorem newline_notMem_replaceNewlines {previous : UInt16} {text : JsString}
    (before : previous ≠ newline) (after : l ≠ newline) (alone : text.count newline ≤ 1) :
    newline ∉ replaceNewlines previous (text ++ [l]) := by
  induction text generalizing previous with
  | nil => simpa [replaceNewlines] using after.symm
  | cons c text ih =>
    obtain ⟨next, first, step⟩ := replaceNewlines_cons_concat previous c l text
    have gone : replaced previous c next ≠ newline := by
      unfold replaced
      by_cases same : c = newline
      · rw [same, List.count_cons_self] at alone
        have none : newline ∉ text := List.count_eq_zero.mp (by omega)
        have apart : next ≠ newline := by
          rintro rfl
          cases text with
          | nil => exact after (Option.some.inj first)
          | cons c' text =>
            exact none (by rw [← Option.some.inj first]; exact List.mem_cons_self ..)
        rw [if_pos ⟨same, before, apart⟩]
        decide
      · rw [if_neg fun lone => same lone.1]
        exact same
    rw [List.cons_append, step, List.mem_cons, not_or]
    refine ⟨gone.symm, ih gone ?_⟩
    have fewer := List.count_le_count_cons (a := newline) (b := c) (l := text)
    omega

theorem takeWhile_of_standsFor {joined text : JsString}
    (alike : List.Forall₂ StandsFor joined text) :
    joined.takeWhile (fun c => !decide (IsSeparator c)) =
      text.takeWhile fun c => !decide (IsSeparator c) := by
  induction alike with
  | nil => rfl
  | cons heads tails ih =>
    rcases heads with rfl | ⟨rfl, rfl⟩
    · rw [List.takeWhile_cons, List.takeWhile_cons, ih]
    · rfl

end Join

theorem mem_of_standsFor {joined text : JsString} (alike : List.Forall₂ StandsFor joined text)
    {a : UInt16} (member : a ∈ joined) : ∃ c ∈ text, StandsFor a c := by
  induction alike with
  | nil => cases member
  | @cons head c joined text heads tails ih =>
    rcases List.mem_cons.mp member with rfl | later
    · exact ⟨c, List.mem_cons_self .., heads⟩
    · obtain ⟨c', inside, standsFor⟩ := ih later
      exact ⟨c', List.mem_cons_of_mem _ inside, standsFor⟩

/-- Joining lines moves no separator. -/
theorem separators_of_standsFor {joined text : JsString}
    (alike : List.Forall₂ StandsFor joined text) :
    (∃ c ∈ text, IsSeparator c) ↔ ∃ c ∈ joined, IsSeparator c := by
  induction alike with
  | nil => simp
  | cons heads tails ih =>
    rw [List.exists_mem_cons_iff, List.exists_mem_cons_iff, ih]
    refine or_congr_left ?_
    rcases heads with rfl | ⟨rfl, rfl⟩
    · exact Iff.rfl
    · exact ⟨fun _ => .inl rfl, fun _ => .inr rfl⟩

theorem getLast_of_standsFor {joined text : JsString} (alike : List.Forall₂ StandsFor joined text)
    (some : text ≠ []) : ∃ c ∈ joined.getLast?, ∃ c' ∈ text.getLast?, StandsFor c c' := by
  rw [List.getLast?_eq_head?_reverse, List.getLast?_eq_head?_reverse]
  have reversed := List.forall₂_reverse_iff.mpr alike
  have some' : text.reverse ≠ [] := by simpa using some
  generalize joined.reverse = first at reversed ⊢
  generalize text.reverse = second at reversed some' ⊢
  cases reversed with
  | nil => exact absurd rfl some'
  | cons heads tails => exact ⟨_, rfl, _, rfl, heads⟩

theorem blank_of_standsFor {joined text : JsString} (alike : List.Forall₂ StandsFor joined text)
    (blank : ∀ c ∈ text, isWhiteSpace c) : ∀ c ∈ joined, isWhiteSpace c := by
  rw [← words_eq_nil_iff] at blank ⊢
  rw [← blank]
  exact words_of_standsFor alike

/-- The first space after a word, with white space in front of it: the word is laid out, and
nothing stands in the place after it. -/
theorem Reflow.Reading.first_space {wrapLength n : Nat} {done token letters : JsString}
    {state : Reflow (List JsString)} (reading : Reading wrapLength done token state)
    (last : token.words ≠ []) (place : done.words.length + token.words.length = n)
    (free : ∀ c ∈ letters, ¬ IsSeparator c) (white : ∀ c ∈ letters, isWhiteSpace c) :
    Reading wrapLength (done ++ (token ++ letters) ++ [space]) []
        ((letters ++ [space]).foldl (Reflow.read addContent wrapLength) state) ∧
      (done ++ (token ++ letters) ++ [space]).words.length = n ∧
        blankAfter isWhiteSpace n
          ((letters ++ [space]).foldl (Reflow.read addContent wrapLength) state).comment = 0 := by
  have few : done.words.length < n := by
    have more := List.length_pos_iff.mpr last
    omega
  have start := reading.blankAfter_few few
  have word := reading.letters_append free
  rw [List.foldl_append, foldl_letters _ free, List.foldl_cons, List.foldl_nil]
  refine ⟨word.separator (.inl rfl), ?_, ?_⟩
  · have same : (token ++ letters).words = token.words := words_append_blanks white token
    have total : (done ++ (token ++ letters) ++ [space]).words =
        (done ++ (token ++ letters)).words := words_concat space_isWhiteSpace _
    rw [total, word.done_token_words, same, List.length_append, place]
  · by_cases overflows : Overflows wrapLength { state with word := state.word ++ letters }
    · rw [read_overflow (.inl rfl) overflows]
      refine (word.blankAfter_overflow overflows).trans ?_
      rw [if_neg fun counts => absurd counts.2 (Nat.ne_of_lt few)]
      exact start
    · rw [read_space overflows]
      exact start

/-- What every added line keeps holds of the finished comment. -/
theorem Reflow.finish_induction {σ : Type} {addLine : σ → JsString → σ} {motive : σ → Prop}
    (add : ∀ comment line, motive comment → motive (addLine comment line)) {wrapLength : Nat}
    {empty : σ} (start : motive empty) (text : JsString) :
    motive ((reads addLine wrapLength empty text).finish addLine wrapLength) := by
  have loop : motive (reads addLine wrapLength empty text).comment := by
    induction text using List.reverseRecOn with
    | nil => exact start
    | append_singleton text c ih =>
      unfold reads at ih ⊢
      rw [List.foldl_append, List.foldl_cons, List.foldl_nil]
      generalize text.foldl (Reflow.read addLine wrapLength) ⟨empty, [], []⟩ = state at ih ⊢
      unfold Reflow.read
      split
      · split
        · exact add _ _ ih
        · split
          · exact add _ _ ih
          · exact ih
      · exact ih
  generalize reads addLine wrapLength empty text = state at loop
  unfold finish
  by_cases overflows : state.Overflows wrapLength
  · simp only [if_pos overflows]
    split
    · exact add _ _ (add _ _ loop)
    · exact add _ _ loop
  · simp only [if_neg overflows]
    split
    · exact add _ _ loop
    · exact loop

/-- A line of a layout that has no word is empty. -/
theorem layout_trimmed {wrapLength : Nat} {text content : JsString}
    (member : content ∈ layout wrapLength text) (none : content.words = []) : content = [] := by
  have trimmed : ∀ content ∈ layout wrapLength text, content.words = [] → content = [] := by
    refine Reflow.finish_induction
      (motive := fun layout : List JsString =>
        ∀ content ∈ layout, content.words = [] → content = [])
      (fun layout line earlier content member => ?_) (by simp) (joinLines text)
    rcases List.mem_append.mp member with before | last
    · exact earlier content before
    · rw [List.mem_singleton.mp last, JsString.words_trim]
      exact trim_eq_nil_iff.mpr
  exact trimmed content member none

namespace Gap

variable {text : JsString}

/-- A gap as the loop reads it. -/
structure Joined (gap : Gap text) (before separator rest : JsString) : Prop where
  split : joinLines text = before ++ (separator ++ gap.token ++ rest)
  before_alike : List.Forall₂ StandsFor before gap.before
  separator_alike : List.Forall₂ StandsFor separator gap.separator
  newlines : ∀ k, gap.separator = List.replicate (k + 2) newline → separator = gap.separator
  flat : gap.Closed → newline ∉ separator
  ends : ∀ c ∈ rest.head?, IsSeparator c

variable (gap : Gap text)

theorem next_ne_newline : gap.next ≠ newline := by
  intro same
  exact gap.starts (by rw [same]; exact newline_isWhiteSpace)

theorem token_free : ∀ c ∈ gap.token, ¬ IsSeparator c := by
  intro c member
  simpa using List.mem_takeWhile_imp member

theorem token_words : gap.token.words ≠ [] := by
  have letter : ¬ IsSeparator gap.next := fun separator => gap.starts separator.isWhiteSpace
  unfold token
  rw [List.takeWhile_cons_of_pos (by simpa using letter)]
  exact words_cons_ne_nil gap.starts _

/-- The character before the gap, which the loop does not replace. -/
theorem exists_front : ∃ before previous,
    joinLines text = before ++ replaceNewlines previous (gap.separator ++ gap.next :: gap.rest) ∧
      List.Forall₂ StandsFor before gap.before ∧ (gap.before ≠ [] → previous ≠ newline) := by
  have whole : joinLines text =
      replaceNewlines newline (gap.before ++ (gap.separator ++ gap.next :: gap.rest)) := by
    rw [joinLines_eq, ← List.append_assoc, gap.split]
  cases reading : gap.before using List.reverseRecOn with
  | nil => exact ⟨[], newline, by rw [whole, reading]; rfl, .nil, fun some => absurd rfl some⟩
  | append_singleton before l =>
    have letter : l ≠ newline := by
      rintro rfl
      exact gap.ends newline (by rw [reading]; simp) newline_isWhiteSpace
    refine ⟨replaceNewlines newline (before ++ [l]), l, ?_, replaceNewlines_standsFor ..,
      fun _ => letter⟩
    rw [whole, reading, List.append_assoc, List.singleton_append, replaceNewlines_append letter]

/-- The loop reads every gap, with the characters that stand for its own. -/
theorem exists_joined : ∃ before separator rest, gap.Joined before separator rest := by
  obtain ⟨before, previous, cut, front, inside⟩ := gap.exists_front
  obtain ⟨separator, same, alike⟩ := replaceNewlines_concat previous gap.next gap.separator
  have read : replaceNewlines previous (gap.separator ++ gap.next :: gap.rest) =
      separator ++ gap.next :: replaceNewlines gap.next gap.rest := by
    rw [replaceNewlines_append gap.next_ne_newline, same, List.append_assoc, List.singleton_append]
  have after : List.Forall₂ StandsFor (gap.next :: replaceNewlines gap.next gap.rest)
      (gap.next :: gap.rest) := .cons (.inl rfl) (replaceNewlines_standsFor ..)
  refine ⟨before, separator, (gap.next :: replaceNewlines gap.next gap.rest).dropWhile
    fun c => !decide (IsSeparator c), ?_, front, alike, ?_, ?_, ?_⟩
  · rw [cut, read, token, ← takeWhile_of_standsFor after, List.append_assoc separator,
      List.takeWhile_append_dropWhile]
  · intro k newlines
    have kept := replaceNewlines_replicate previous gap.next k
    rw [← newlines, same] at kept
    exact List.append_cancel_right kept
  · intro closed member
    unfold Closed at closed
    split at closed
    · -- without a newline there is nothing to replace
      obtain ⟨c, inside, standsFor⟩ := mem_of_standsFor alike member
      rcases standsFor with rfl | ⟨absurdity, -⟩
      · exact closed inside
      · exact absurd absurdity (by decide)
    · rename_i some
      have gone := newline_notMem_replaceNewlines (inside some) gap.next_ne_newline closed
      rw [same] at gone
      exact gone (List.mem_append_left _ member)
  · intro c first
    have stops := List.head?_dropWhile_not (fun c => !decide (IsSeparator c))
      (gap.next :: replaceNewlines gap.next gap.rest)
    rw [Option.mem_def] at first
    rw [first] at stops
    simpa using stops

/-! ### What becomes of a gap -/

variable {gap} {wrapLength : Nat} {before separator rest : JsString}

/-- The loop has read what is in front of the gap. -/
theorem Joined.loopAt_eq (joined : gap.Joined before separator rest) {count : Nat}
    (within : count ≤ gap.separator.length + gap.token.length) :
    gap.loopAt wrapLength count = ((separator ++ gap.token).take count).foldl
      (Reflow.read addContent wrapLength) (Reflow.reads addContent wrapLength [] before) := by
  have front := joined.before_alike.length_eq
  have middle := joined.separator_alike.length_eq
  have read : (joinLines text).take (gap.before.length + count) =
      before ++ (separator ++ gap.token).take count := by
    rw [joined.split, ← front, List.take_length_add_append,
      List.take_append_of_le_length (by rw [List.length_append]; omega)]
  rw [loopAt, loopAfter, read, Reflow.reads, List.foldl_append]
  rfl

/-- The blank lines of the layout in the place of the gap. -/
theorem Joined.blankLines_layout (joined : gap.Joined before separator rest) :
    gap.blankLines (layout wrapLength text) =
      Reflow.blankLinesWith wrapLength gap.before.words.length
        (Reflow.reads addContent wrapLength [] before) (separator ++ gap.token ++ rest) := by
  rw [blankLines, layout, joined.split, Reflow.reads, List.foldl_append]
  rfl

/-- The last word before the gap is the token the loop reads there. -/
theorem Joined.reading (wrapLength : Nat) (joined : gap.Joined before separator rest)
    (some : gap.before ≠ []) :
    ∃ done token, Reflow.Reading wrapLength done token
        (Reflow.reads addContent wrapLength [] before) ∧ token.words ≠ [] ∧
      done.words.length + token.words.length = gap.before.words.length := by
  obtain ⟨done, token, cut, reading⟩ := Reflow.Reading.reads wrapLength before
  have total : done.words.length + token.words.length = gap.before.words.length := by
    rw [← words_of_standsFor joined.before_alike, cut, reading.done_token_words, List.length_append]
  refine ⟨done, token, reading, fun none => ?_, total⟩
  obtain ⟨c, last, c', last', standsFor⟩ := getLast_of_standsFor joined.before_alike some
  have letter : ¬ isWhiteSpace c := by
    rcases standsFor with rfl | ⟨-, rfl⟩
    · exact gap.ends c last'
    · exact absurd newline_isWhiteSpace (gap.ends newline last')
  rw [cut, List.getLast?_append, Option.mem_def, Option.or_eq_some_iff] at last
  rcases last with inside | ⟨-, earlier⟩
  · exact letter (words_eq_nil_iff.mp none c (List.mem_of_getLast? inside))
  · exact letter (reading.separated c earlier)

/-- Newlines between two words are their blank lines exactly where the gap is kept. -/
theorem Joined.newlines_iff (positive : 1 ≤ wrapLength)
    (joined : gap.Joined before separator rest) (some : gap.before ≠ []) {k : Nat}
    (newlines : gap.separator = List.replicate (k + 2) newline) :
    gap.blankLines (layout wrapLength text) = k + 1 ↔
      (gap.Swallows wrapLength ↔ gap.Adds wrapLength) := by
  obtain ⟨done, token, reading, last, place⟩ := joined.reading wrapLength some
  have start : gap.loopAt wrapLength 0 = Reflow.reads addContent wrapLength [] before :=
    joined.loopAt_eq (Nat.zero_le _)
  have length : gap.separator.length = 2 ↔ k = 0 := by
    rw [newlines, List.length_replicate]
    omega
  unfold Swallows Adds Swallows
  rw [joined.blankLines_layout, joined.newlines k newlines, newlines, start, ← newlines, length]
  rw [newlines]
  exact Reflow.Reading.blankLinesWith_paragraph gap.token_free gap.token_words joined.ends positive
    reading last place k

/-- White space in front of the first word leaves a blank line exactly where a word is
forced. -/
theorem Joined.front_iff (joined : gap.Joined before separator rest) (front : gap.before = [])
    (closed : gap.Closed) : gap.blankLines (layout wrapLength text) = 0 ↔
      ∀ count ≤ gap.separator.length + gap.token.length,
        ¬ (gap.loopAt wrapLength count).Forced wrapLength := by
  have blank := blank_of_standsFor joined.separator_alike gap.blank
  have empty : before = [] := by
    have alike := joined.before_alike
    rw [front] at alike
    cases alike
    rfl
  subst empty
  obtain ⟨-, clear⟩ := (Reflow.Reading.start wrapLength).blankLinesWith_spaces rfl rfl blank
    (joined.flat closed) gap.token_free gap.token_words joined.ends
  have place : gap.before.words.length = 0 := by rw [front]; rfl
  have counted : gap.blankLines (layout wrapLength text) = 0 ↔
      Reflow.Clear wrapLength ⟨[], [], []⟩ (separator ++ gap.token) := by
    rw [joined.blankLines_layout, place]
    exact clear
  rw [counted]
  unfold Reflow.Clear
  rw [List.length_append, joined.separator_alike.length_eq]
  refine forall_congr' fun count => forall_congr' fun within => ?_
  rw [joined.loopAt_eq within]
  rfl

/-- White space between two words, in front of its first separator and after it. -/
theorem exists_separator {white : JsString} (found : ∃ c ∈ white, IsSeparator c) :
    ∃ letters c spaces, white = letters ++ c :: spaces ∧ (∀ c ∈ letters, ¬ IsSeparator c) ∧
      IsSeparator c := by
  induction white with
  | nil => simp at found
  | cons head white ih =>
    by_cases separator : IsSeparator head
    · exact ⟨[], head, white, rfl, by simp, separator⟩
    · obtain ⟨c, member, separates⟩ := found
      have later : c ∈ white := (List.mem_cons.mp member).resolve_left fun same =>
        separator (same ▸ separates)
      obtain ⟨letters, c', spaces, rfl, free, found⟩ := ih ⟨c, later, separates⟩
      refine ⟨head :: letters, c', spaces, rfl, ?_, found⟩
      intro c'' inside
      rcases List.mem_cons.mp inside with rfl | inner
      · exact separator
      · exact free c'' inner

theorem Joined.found_iff (joined : gap.Joined before separator rest) (count : Nat) :
    (∃ c ∈ gap.separator.take count, IsSeparator c) ↔ ∃ c ∈ separator.take count, IsSeparator c :=
  separators_of_standsFor (List.forall₂_take count joined.separator_alike)

/-- White space between two words leaves a blank line exactly where a word is forced after
its first separator. -/
theorem Joined.separated_iff (joined : gap.Joined before separator rest) (some : gap.before ≠ [])
    (closed : gap.Closed) (separated : ∃ c ∈ separator, IsSeparator c) :
    gap.blankLines (layout wrapLength text) = 0 ↔
      ∀ count ≤ gap.separator.length + gap.token.length,
        (∃ c ∈ gap.separator.take count, IsSeparator c) →
          ¬ (gap.loopAt wrapLength count).Forced wrapLength := by
  obtain ⟨done, token, reading, last, place⟩ := joined.reading wrapLength some
  have blank := blank_of_standsFor joined.separator_alike gap.blank
  have flat := joined.flat closed
  rw [joined.blankLines_layout]
  obtain ⟨letters, c, spaces, rfl, free, separates⟩ := exists_separator separated
  obtain rfl : c = space := separates.resolve_right fun same => flat (by simp [same])
  obtain ⟨laid, words, none⟩ := reading.first_space last place free
    fun c member => blank c (List.mem_append_left _ member)
  generalize after : (letters ++ [space]).foldl (Reflow.read addContent wrapLength)
    (Reflow.reads addContent wrapLength [] before) = state at laid none
  have blank' : ∀ c ∈ spaces, isWhiteSpace c := fun c member => blank c (by simp [member])
  have flat' : newline ∉ spaces := fun member => flat (by simp [member])
  obtain ⟨-, clear⟩ := laid.blankLinesWith_spaces words rfl blank' flat' gap.token_free
    gap.token_words joined.ends
  have goes : ∀ ahead, (letters ++ space :: ahead).foldl (Reflow.read addContent wrapLength)
      (Reflow.reads addContent wrapLength [] before) =
      ahead.foldl (Reflow.read addContent wrapLength) state := by
    intro ahead
    rw [List.append_cons, List.foldl_append, after]
  rw [none] at clear
  rw [Reflow.blankLinesWith, List.append_assoc, List.append_assoc, List.cons_append, goes,
    ← List.append_assoc]
  -- a position of the gap past its first separator is one of what the loop reads after it
  have length := joined.separator_alike.length_eq
  rw [List.length_append, List.length_cons] at length
  have position : ∀ count, ((letters ++ space :: spaces ++ gap.token).take
      (letters.length + (count + 1))).foldl (Reflow.read addContent wrapLength)
        (Reflow.reads addContent wrapLength [] before) =
      ((spaces ++ gap.token).take count).foldl (Reflow.read addContent wrapLength) state := by
    intro count
    rw [List.append_assoc, List.take_length_add_append, List.cons_append, List.take_succ_cons,
      goes]
  refine clear.trans ⟨fun free' count within separator => ?_, fun free' count within => ?_⟩
  · obtain ⟨c, member, separates'⟩ := (joined.found_iff count).mp separator
    have past : letters.length < count := by
      by_contra short
      rw [List.take_append_of_le_length (Nat.le_of_not_lt short)] at member
      exact free c (List.mem_of_mem_take member) separates'
    obtain ⟨later, rfl⟩ := Nat.exists_eq_add_of_lt past
    rw [joined.loopAt_eq within, Nat.add_assoc, position]
    refine free' later ?_
    rw [List.length_append]
    omega
  · rw [List.length_append] at within
    have within' : letters.length + (count + 1) ≤ gap.separator.length + gap.token.length := by
      omega
    rw [← position, ← joined.loopAt_eq within']
    refine free' _ within' ((joined.found_iff _).mpr ⟨space, ?_, .inl rfl⟩)
    rw [List.take_length_add_append, List.take_succ_cons]
    exact List.mem_append_right _ (List.mem_cons_self ..)

/-- A gap without a separator is inside a token, and leaves no blank line. -/
theorem Joined.blankLines_unseparated (joined : gap.Joined before separator rest)
    (some : gap.before ≠ []) (free : ∀ c ∈ separator, ¬ IsSeparator c) :
    gap.blankLines (layout wrapLength text) = 0 := by
  obtain ⟨done, token, reading, last, place⟩ := joined.reading wrapLength some
  have blank := blank_of_standsFor joined.separator_alike gap.blank
  have few : done.words.length < gap.before.words.length := by
    have more := List.length_pos_iff.mpr last
    omega
  have none : gap.before.words.length < done.words.length +
      (token ++ (separator ++ gap.token)).words.length := by
    obtain ⟨c, white, cut⟩ : ∃ c white, separator = c :: white := by
      refine List.exists_cons_of_ne_nil fun empty => gap.apart some ?_
      have length := joined.separator_alike.length_eq
      rw [empty] at length
      exact List.length_eq_zero_iff.mp length.symm
    rw [cut] at blank ⊢
    have words : (token ++ (c :: white ++ gap.token)).words = token.words ++ gap.token.words := by
      rw [List.cons_append, JsString.words, words_append_cons (blank c (List.mem_cons_self ..)),
        words_blanks_append fun c' member => blank c' (List.mem_cons_of_mem _ member)]
    have more := List.length_pos_iff.mpr gap.token_words
    rw [words, List.length_append]
    omega
  have letters : ∀ c ∈ separator ++ gap.token, ¬ IsSeparator c := by
    intro c member
    exact (List.mem_append.mp member).elim (free c) (gap.token_free c)
  have counts := (reading.letters_append letters).blankAfter_token none joined.ends
  rw [joined.blankLines_layout, Reflow.blankLinesWith, List.foldl_append,
    Reflow.foldl_letters _ letters, counts,
    if_neg fun forced => absurd forced.2 (Nat.ne_of_lt few), Nat.add_zero]
  exact reading.blankAfter_few few

theorem Joined.between_iff (joined : gap.Joined before separator rest) (some : gap.before ≠ [])
    (closed : gap.Closed) : gap.blankLines (layout wrapLength text) = 0 ↔
      ∀ count ≤ gap.separator.length + gap.token.length,
        (∃ c ∈ gap.separator.take count, IsSeparator c) →
          ¬ (gap.loopAt wrapLength count).Forced wrapLength := by
  by_cases separated : ∃ c ∈ separator, IsSeparator c
  · exact joined.separated_iff some closed separated
  · have free : ∀ c ∈ separator, ¬ IsSeparator c := fun c member separates =>
      separated ⟨c, member, separates⟩
    refine iff_of_true (joined.blankLines_unseparated some free) ?_
    intro count _ separator
    obtain ⟨c, member, separates⟩ := (joined.found_iff count).mp separator
    exact absurd separates (free c (List.mem_of_mem_take member))

/-- With or without the lines that are not seen, a place after a word has the same. -/
theorem blankLines_shown (gap : Gap text) (some : gap.before ≠ []) (linePrefix : JsString) :
    gap.blankLines (shown linePrefix (layout wrapLength text)) =
      gap.blankLines (layout wrapLength text) := by
  obtain ⟨before, separator, rest, joined⟩ := gap.exists_joined
  obtain ⟨done, token, -, last, place⟩ := joined.reading wrapLength some
  have more := List.length_pos_iff.mpr last
  unfold shown
  split
  · exact blankAfter_dropWhile (by omega) _
  · rfl

/-- A gap is preserved exactly where it is kept. -/
theorem preserved_iff (gap : Gap text) (positive : 1 ≤ wrapLength) (linePrefix : JsString) :
    gap.Preserved (shown linePrefix (layout wrapLength text)) ↔ gap.Kept wrapLength linePrefix := by
  obtain ⟨before, separator, rest, joined⟩ := gap.exists_joined
  unfold Preserved Kept
  by_cases front : gap.before = []
  · refine and_congr (by simp [front]) (forall_congr' fun closed => ?_)
    by_cases bare : linePrefix = []
    · have unseen : gap.blankLines (shown linePrefix (layout wrapLength text)) = 0 := by
        rw [blankLines, front, shown, if_pos bare]
        exact blankAfter_zero_dropWhile fun content member => layout_trimmed member
      rw [unseen]
      simp [front, bare]
    · rw [shown, if_neg bare, joined.front_iff front closed]
      simp [front, bare]
  · rw [gap.blankLines_shown front]
    refine and_congr ?_ (forall_congr' fun closed => ?_)
    · refine forall_congr' fun _ => forall_congr' fun k => forall_congr' fun two =>
        forall_congr' fun newlines => ?_
      obtain ⟨k, rfl⟩ := Nat.exists_eq_add_of_le' two
      exact joined.newlines_iff positive front newlines
    · rw [joined.between_iff front closed]
      simp [front]

end Gap

/-- `formatComment` keeps the paragraphs of a text exactly where each gap is kept: where a
newline is not spent on wrapping unless a line is added for it, and no word is forced. -/
theorem preservesParagraphs_iff (linePrefix : JsString) (bounded : newline ∉ linePrefix)
    (text : CommentText) (wrapLength : Nat) (positive : 1 ≤ wrapLength) :
    PreservesParagraphs linePrefix text wrapLength ↔
      ∀ gap : Gap text.textValue, gap.Kept wrapLength linePrefix := by
  obtain ⟨-, -, read⟩ := formatComment_lines bounded text wrapLength
    fun content member => ((layout_spec wrapLength text.textValue).2 content member).free
  unfold PreservesParagraphs
  rw [read]
  exact forall_congr' fun gap => gap.preserved_iff positive linePrefix

/-- The comment of a text with two paragraphs. -/
theorem short_paragraphs_preserved_iff :
    newline ∉ [0x2F, space] ∧ 1 ≤ 80 ∧
      (PreservesParagraphs [0x2F, space] (.string [0x61, newline, newline, 0x62]) 80 ↔
        ∀ gap : Gap [0x61, newline, newline, 0x62], gap.Kept 80 [0x2F, space]) :=
  ⟨by decide, by decide, preservesParagraphs_iff _ (by decide) _ 80 (by decide)⟩

/-- A text whose first paragraph ends where its second word does not fit the line. -/
def wrappedParagraphs : JsString :=
  [0x61, 0x61, space, 0x62, 0x62, newline, newline, 0x63, 0x63]

/-- The blank line of this text is lost. -/
theorem paragraphs_not_preserved :
    ¬ ∀ linePrefix text wrapLength, newline ∉ linePrefix → 1 ≤ wrapLength →
      PreservesParagraphs linePrefix text wrapLength := by
  intro preserves
  let gap : Gap wrappedParagraphs :=
    ⟨[0x61, 0x61, space, 0x62, 0x62], [newline, newline], 0x63, [0x63], rfl,
      List.all_eq_true.mp (by decide), by decide, by rintro c ⟨⟩; decide, by decide⟩
  have preserved := preserves [0x2F, space] (.string wrappedParagraphs) 4 (by decide) (by decide)
    gap
  have kept := preserved.1 (by decide) 2 (by decide) rfl
  exact absurd kept (by decide)

end Wapc.Codegen
