import Wapc.Semantics.Ascii
import Wapc.Semantics.Words
import Wapc.Codegen.Names
import Wapc.Codegen.Types

/-!
# The case of generated names

`noCase` puts marks into a name and then looks for them. What comes out depends on the parts
of the name only: they are put into small letters and joined. So generated names are in snake
case, keep their letters and digits, and are changed again by no second run.
-/

namespace Wapc.Codegen

open Semantics Words Ascii

/-! ### Taking a name apart -/

/-- A character that no generated name keeps. -/
def isOther (c : Char) : Bool := !c.isAlphanum

/-- The parts of a name, as they are before they change their case. -/
def parts (input : List Char) : List (List Char) :=
  words isOther (splitUpperWord (splitLowerUpper input))

theorem nul_not_isAlphanum : nul.isAlphanum = false := by decide

theorem isOther_nul : isOther nul := by decide

section Strip

variable (text : List Char)

theorem stripOthers_mem (inside : Bool) :
    ∀ c ∈ stripOthers inside text, c = nul ∨ c.isAlphanum := by
  fun_induction stripOthers inside text with
  | case1 => simp
  | case2 inside c rest letter ih => simpa [letter] using fun d member => ih d member
  | case3 c rest other ih => exact ih
  | case4 inside c rest other outside ih => simpa using fun d member => ih d member

/-- No two marks follow each other, and none comes first inside a match. -/
theorem stripOthers_tidy (inside : Bool) : Tidy isOther (stripOthers inside text) ∧
    (inside → ∀ c ∈ (stripOthers inside text).head?, isOther c = false) := by
  fun_induction stripOthers inside text with
  | case1 => exact ⟨.nil, by simp⟩
  | case2 inside c rest letter ih =>
    have kept : isOther c = false := by simp [isOther, letter]
    exact ⟨ih.1.cons (by simp [kept]), by simp [kept]⟩
  | case3 c rest other ih => exact ih
  | case4 inside c rest other outside ih =>
    exact ⟨ih.1.cons fun _ => ih.2 rfl, fun within => absurd within outside⟩

theorem words_stripOthers (read : List Char) (inside : Bool)
    (ends : inside → ∀ c ∈ read.getLast?, isOther c) :
    words isOther (read ++ stripOthers inside text) = words isOther (read ++ text) := by
  induction text generalizing read inside with
  | nil => rfl
  | cons c text ih =>
    by_cases letter : c.isAlphanum
    · have later := ih (read ++ [c]) false (by simp)
      simpa [stripOthers, letter] using later
    · have separates : isOther c := by simp [isOther, letter]
      have rest : words isOther (stripOthers true text) = words isOther text := ih [] true (by simp)
      rw [words_append_cons separates]
      cases inside with
      | true =>
        have skipped : stripOthers true (c :: text) = stripOthers true text := by
          simp [stripOthers, letter]
        rw [skipped, words_append_of_getLast (ends rfl), rest]
      | false =>
        have marked : stripOthers false (c :: text) = nul :: stripOthers true text := by
          simp [stripOthers, letter]
        rw [marked, words_append_cons isOther_nul, rest]

end Strip

theorem splitLowerUpper_filter (text : List Char) :
    (splitLowerUpper text).filter Char.isAlphanum = text.filter Char.isAlphanum := by
  fun_induction splitLowerUpper text with
  | case1 first second rest boundary ih => simp [List.filter_cons, ih, nul_not_isAlphanum]
  | case2 first second rest inside ih => rw [List.filter_cons, List.filter_cons, ih]
  | case3 rest short => rfl

theorem splitUpperWord_filter (text : List Char) :
    (splitUpperWord text).filter Char.isAlphanum = text.filter Char.isAlphanum := by
  fun_induction splitUpperWord text with
  | case1 first second third rest boundary ih => simp [List.filter_cons, ih, nul_not_isAlphanum]
  | case2 first second third rest inside ih => rw [List.filter_cons, List.filter_cons, ih]
  | case3 rest short => rfl

/-- A name is its parts, in small letters, joined by the delimiter. -/
theorem noCase_eq (delimiter input : List Char) :
    noCase delimiter input = delimiter.intercalate ((parts input).map lowerCase) := by
  unfold noCase parts
  generalize splitUpperWord (splitLowerUpper input) = text
  simp only
  have same : ∀ c ∈ stripOthers false text, (c == nul) = isOther c := by
    intro c member
    rcases stripOthers_mem text false c member with rfl | letter
    · rw [isOther_nul, beq_self_eq_true]
    · have different : c ≠ nul := by
        rintro rfl
        exact absurd letter (by decide)
      simp [isOther, letter, different]
  have tidy : Tidy (· == nul) (stripOthers false text) := by
    refine (stripOthers_tidy text false).1.imp_of_mem_imp fun a b first second apart => ?_
    change ¬ ((a == nul) = true ∧ (b == nul) = true)
    rwa [same a first, same b second]
  have kept : words (· == nul) (stripOthers false text) = words isOther text := by
    rw [words_congr same]
    exact words_stripOthers text [] false (by simp)
  change delimiter.intercalate (((trim (· == nul) (stripOthers false text)).splitOn nul).map
    lowerCase) = _
  by_cases empty : trim (· == nul) (stripOthers false text) = []
  · have none : words isOther text = [] := by rw [← kept, ← trim_eq_nil_iff, empty]
    rw [empty, none]
    rfl
  · rw [List.splitOn_eq_splitOnP, splitOnP_trim tidy empty, kept]

/-! ### Snake case -/

/-- A word of small letters and digits. -/
def IsSnakeWord (word : List Char) : Prop := word ≠ [] ∧ ∀ c ∈ word, c.isLower ∨ c.isDigit

/-- Words of small letters and digits with one underscore between any two. -/
def IsSnake (text : List Char) : Prop :=
  ∃ words : List (List Char), (∀ word ∈ words, IsSnakeWord word) ∧ text = ['_'].intercalate words

theorem mem_parts {input part : List Char} (member : part ∈ parts input) :
    part ≠ [] ∧ ∀ c ∈ part, c.isAlphanum := by
  obtain ⟨full, letters⟩ := mem_words member
  exact ⟨full, fun c inside => by simpa [isOther] using (letters c inside).2⟩

theorem parts_snakeWords {input word : List Char} (member : word ∈ (parts input).map lowerCase) :
    IsSnakeWord word := by
  obtain ⟨part, found, rfl⟩ := List.mem_map.mp member
  obtain ⟨full, letters⟩ := mem_parts found
  refine ⟨by simpa [lowerCase] using full, ?_⟩
  intro c inside
  obtain ⟨d, before, rfl⟩ := List.mem_map.mp inside
  exact toLower_letter (letters d before)

theorem noCase_isSnake (input : List Char) : IsSnake (noCase ['_'] input) :=
  ⟨(parts input).map lowerCase, fun _ member => parts_snakeWords member, noCase_eq ['_'] input⟩

theorem IsSnake.small {text : List Char} (snake : IsSnake text) :
    ∀ c ∈ text, c.isLower ∨ c.isDigit ∨ c = '_' := by
  obtain ⟨words, proper, rfl⟩ := snake
  intro c member
  rcases mem_intercalate member with ⟨word, found, inside⟩ | underscore
  · exact ((proper word found).2 c inside).imp_right .inl
  · exact .inr (.inr (List.mem_singleton.mp underscore))

theorem splitLowerUpper_of_noUpper {text : List Char} (small : ∀ c ∈ text, c.isUpper = false) :
    splitLowerUpper text = text := by
  fun_induction splitLowerUpper text with
  | case1 first second rest boundary ih => simp [small second (by simp)] at boundary
  | case2 first second rest inside ih => rw [ih fun c member => small c (by simp_all)]
  | case3 rest short => rfl

theorem splitUpperWord_of_noUpper {text : List Char} (small : ∀ c ∈ text, c.isUpper = false) :
    splitUpperWord text = text := by
  fun_induction splitUpperWord text with
  | case1 first second third rest boundary ih => simp [small second (by simp)] at boundary
  | case2 first second third rest inside ih => rw [ih fun c member => small c (by simp_all)]
  | case3 rest short => rfl

/-- A text in snake case is its own name. -/
theorem IsSnake.noCase_eq {text : List Char} (snake : IsSnake text) : noCase ['_'] text = text := by
  have small : ∀ c ∈ text, c.isUpper = false := by
    intro c member
    rcases snake.small c member with lower | digit | rfl
    · exact not_isUpper_of_small (.inl lower)
    · exact not_isUpper_of_small (.inr digit)
    · decide
  obtain ⟨words, proper, rfl⟩ := snake
  have same : parts (['_'].intercalate words) = words := by
    rw [parts, splitLowerUpper_of_noUpper small, splitUpperWord_of_noUpper small]
    refine words_intercalate (by decide) fun word member => ⟨(proper word member).1, ?_⟩
    intro c inside
    simpa [isOther] using isAlphanum_of_small ((proper word member).2 c inside)
  have lower : words.map lowerCase = words := by
    refine (List.map_congr_left fun word member => ?_).trans (List.map_id words)
    exact (List.map_congr_left fun c inside =>
      toLower_of_small ((proper word member).2 c inside)).trans (List.map_id word)
  rw [Codegen.noCase_eq, same, lower]

theorem noCase_eq_self_iff (text : List Char) : noCase ['_'] text = text ↔ IsSnake text := by
  refine ⟨fun same => ?_, IsSnake.noCase_eq⟩
  rw [← same]
  exact noCase_isSnake text

/-! ### What a name keeps -/

theorem flatten_parts (input : List Char) :
    (parts input).flatten = input.filter Char.isAlphanum := by
  rw [parts, flatten_words, ← splitLowerUpper_filter, ← splitUpperWord_filter]
  simp [isOther]

/-- The letters and digits of a name stay, in their order and in small letters. -/
theorem noCase_filter (input : List Char) : (noCase ['_'] input).filter Char.isAlphanum =
    (input.filter Char.isAlphanum).map Char.toLower := by
  rw [noCase_eq, filter_intercalate (by simp), ← flatten_parts input, List.map_flatten]
  refine List.filter_eq_self.mpr fun c member => ?_
  obtain ⟨word, found, inside⟩ := List.mem_flatten.mp member
  exact isAlphanum_of_small ((parts_snakeWords found).2 c inside)

/-! ### Names as strings -/

theorem toList_snakeCase (input : String) : (snakeCase input).toList = noCase ['_'] input.toList :=
  String.toList_ofList ..

/-- Names in snake case are not confused in upper case. -/
theorem toUpper_functionName_inj {first second : String} :
    (functionName first).toUpper = (functionName second).toUpper ↔
      functionName first = functionName second := by
  constructor
  · intro same
    have back (name : String) :
        (functionName name).toUpper.toList.map Char.toLower = (functionName name).toList := by
      rw [String.toUpper, String.toList_map, List.map_map]
      refine (List.map_congr_left fun c member => ?_).trans (List.map_id _)
      have snake := noCase_isSnake name.toList
      rw [← toList_snakeCase] at snake
      exact toLower_toUpper_of_small (snake.small c member)
    rw [← String.toList_inj, ← back first, same, back second]
  · intro same
    rw [same]

/-! ### Identifiers -/

/-- The keywords of the generated language, whose edition is 2018, with those it reserves. -/
def keywords : List String :=
  ["as", "break", "const", "continue", "crate", "else", "enum", "extern", "false", "fn", "for",
    "if", "impl", "in", "let", "loop", "match", "mod", "move", "mut", "pub", "ref", "return",
    "self", "Self", "static", "struct", "super", "trait", "true", "type", "unsafe", "use", "where",
    "while", "async", "await", "dyn", "abstract", "become", "box", "do", "final", "macro",
    "override", "priv", "try", "typeof", "unsized", "virtual", "yield"]

def isKeyword (text : List Char) : Bool := keywords.contains (String.ofList text)

/-- The text is spelled like an identifier. -/
def isSpelledIdentifier : List Char → Bool
  | [] => false
  | first :: rest => (first.isAlpha || first == '_' && !rest.isEmpty) && rest.all isNameChar

/-- The text is an identifier of the generated language. -/
def isIdentifier (text : List Char) : Bool := isSpelledIdentifier text && !isKeyword text

/-- Keywords are single words. -/
theorem isKeyword_word {text : List Char} (keyword : isKeyword text) : text ≠ [] ∧ '_' ∉ text := by
  have words : ∀ word ∈ keywords, word.toList ≠ [] ∧ '_' ∉ word.toList := by decide
  have word := words (String.ofList text) (List.contains_iff_mem.mp keyword)
  rwa [String.toList_ofList] at word

/-- A name becomes a single word only if it has a single part. -/
theorem noCase_eq_word_iff {input word : List Char} (full : word ≠ []) (joined : '_' ∉ word) :
    noCase ['_'] input = word ↔ ∃ part, parts input = [part] ∧ lowerCase part = word := by
  rw [noCase_eq]
  constructor
  · intro same
    cases split : parts input with
    | nil =>
      rw [split] at same
      exact absurd same.symm full
    | cons part rest =>
      cases rest with
      | nil =>
        rw [split] at same
        exact ⟨part, rfl, by simpa using same⟩
      | cons next rest =>
        rw [split] at same
        refine absurd ?_ joined
        rw [← same, List.map_cons, List.map_cons, List.intercalate_cons_cons]
        simp
  · rintro ⟨part, split, rfl⟩
    simp [split]

/-- A generated name is a keyword only if the name has a single part, and that is one in small
letters. -/
theorem isKeyword_noCase_iff (input : List Char) :
    isKeyword (noCase ['_'] input) ↔ ∃ part, parts input = [part] ∧ isKeyword (lowerCase part) := by
  constructor
  · intro keyword
    obtain ⟨full, joined⟩ := isKeyword_word keyword
    obtain ⟨part, split, same⟩ := (noCase_eq_word_iff full joined).mp rfl
    exact ⟨part, split, by rwa [same]⟩
  · rintro ⟨part, split, keyword⟩
    obtain ⟨full, joined⟩ := isKeyword_word keyword
    rwa [(noCase_eq_word_iff full joined).mpr ⟨part, split, rfl⟩]

/-- A text in snake case begins with its first letter or digit. -/
theorem IsSnake.head? {text : List Char} (snake : IsSnake text) :
    text.head? = (text.filter Char.isAlphanum).head? := by
  obtain ⟨words, proper, rfl⟩ := snake
  cases words with
  | nil => rfl
  | cons word words =>
    obtain ⟨full, letters⟩ := proper word List.mem_cons_self
    obtain ⟨c, rest, rfl⟩ := List.exists_cons_of_ne_nil full
    have letter : c.isAlphanum := isAlphanum_of_small (letters c List.mem_cons_self)
    rw [List.intercalate_cons_cons_left, List.head?_cons, List.filter_cons_of_pos letter,
      List.head?_cons]

theorem isSpelledIdentifier_snake_iff {text : List Char} (snake : IsSnake text) :
    isSpelledIdentifier text ↔ ∃ c, (text.filter Char.isAlphanum).head? = some c ∧ c.isAlpha := by
  rw [← snake.head?]
  have nameChars : ∀ c ∈ text, isNameChar c := by
    intro c member
    rcases snake.small c member with lower | digit | rfl
    · simp [isNameChar, isAlphanum_of_small (.inl lower)]
    · simp [isNameChar, isAlphanum_of_small (.inr digit)]
    · rfl
  cases text with
  | nil => simp [isSpelledIdentifier]
  | cons first rest =>
    have later : rest.all isNameChar := by
      rw [List.all_eq_true]
      exact fun c member => nameChars c (List.mem_cons_of_mem _ member)
    have start : first ≠ '_' := by
      rintro rfl
      have kept := List.mem_of_mem_head? snake.head?.symm
      exact absurd (List.mem_filter.mp kept).2 (by decide)
    simp [isSpelledIdentifier, later, start]

/-! ### The names of the generator -/

/-- Whatever a definition is called, the name that is generated for it is in snake case and keeps
its letters and digits; only a name in snake case is kept as it is. -/
theorem generated_name_snake (input : String) :
    IsSnake (snakeCase input).toList ∧
      (snakeCase input).toList.filter Char.isAlphanum =
        (input.toList.filter Char.isAlphanum).map Char.toLower ∧
      (snakeCase input = input ↔ IsSnake input.toList) := by
  rw [toList_snakeCase, ← String.toList_inj, toList_snakeCase]
  exact ⟨noCase_isSnake _, noCase_filter _, noCase_eq_self_iff _⟩

/-- A generated function has a name that can be written exactly if the first letter or digit of
the operation's name is a letter, and the name is not a single part that is a keyword in small
letters. -/
theorem functionName_isIdentifier_iff (name : Name) :
    isIdentifier (functionName name.value).toList ↔
      (∃ c, (name.value.toList.filter Char.isAlphanum).head? = some c ∧ c.isAlpha) ∧
        ∀ part, parts name.value.toList = [part] → ¬ isKeyword (lowerCase part) := by
  have text : (functionName name.value).toList = noCase ['_'] name.value.toList :=
    toList_snakeCase name.value
  have spelled : isSpelledIdentifier (noCase ['_'] name.value.toList) ↔
      ∃ c, (name.value.toList.filter Char.isAlphanum).head? = some c ∧ c.isAlpha := by
    rw [isSpelledIdentifier_snake_iff (noCase_isSnake _), noCase_filter, List.head?_map]
    constructor
    · rintro ⟨c, first, letter⟩
      obtain ⟨d, same, rfl⟩ := Option.map_eq_some_iff.mp first
      exact ⟨d, same, (isAlpha_toLower d).mp letter⟩
    · rintro ⟨c, first, letter⟩
      exact ⟨c.toLower, by rw [first]; rfl, (isAlpha_toLower c).mpr letter⟩
  have keyword := isKeyword_noCase_iff name.value.toList
  rw [text, isIdentifier, Bool.and_eq_true, spelled, Bool.not_eq_true', ← Bool.not_eq_true,
    keyword]
  simp only [not_exists, not_and]

end Wapc.Codegen
