import Wapc.Semantics.Words

/-!
# Comments of generated code

`formatComment` writes a description as comment lines of a bounded width. Its loop carries
the comment so far, the line it fills and the word it reads, with the space in front of it.
The loop is stated for any way to add a line: with `addCommentLine` it is the code, and with
`addContent` it is a layout, the list of what the lines contain.
-/

namespace Wapc.Codegen

open Semantics Words

/-- A string of JavaScript, as UTF-16 code units. -/
abbrev JsString := List UInt16

def space : UInt16 := 0x20

def newline : UInt16 := 0x0A

/-- White space and line terminators, which `trim` drops. -/
def isWhiteSpace (c : UInt16) : Bool :=
  (0x09 ≤ c && c ≤ 0x0D) || c == 0x20 || c == 0xA0 || c == 0x1680 ||
    (0x2000 ≤ c && c ≤ 0x200A) || c == 0x2028 || c == 0x2029 || c == 0x202F ||
    c == 0x205F || c == 0x3000 || c == 0xFEFF

def JsString.trim (text : JsString) : JsString := Words.trim isWhiteSpace text

abbrev JsString.words (text : JsString) : List JsString := Words.words isWhiteSpace text

/-- The argument `text`: a string, a node of the syntax tree that has one, or neither. -/
inductive CommentText where
  | undefined
  | string (text : JsString)
  | stringValue (value : JsString)
deriving DecidableEq, Repr

def CommentText.textValue : CommentText → JsString
  | undefined => []
  | string text => text
  | stringValue value => value

/-- The first loop after its first character: a newline between two other characters becomes
a space. The character before may have been replaced already. -/
def replaceNewlines (previous : UInt16) : JsString → JsString
  | c :: next :: rest =>
    let replaced := if c = newline ∧ previous ≠ newline ∧ next ≠ newline then space else c
    replaced :: replaceNewlines replaced (next :: rest)
  | rest => rest

/-- Newlines that stand alone become spaces. -/
def joinLines : JsString → JsString
  | [] => []
  | first :: rest => first :: replaceNewlines first rest

/-- What the second loop carries. -/
structure Reflow (σ : Type) where
  comment : σ
  line : JsString
  word : JsString

namespace Reflow

section Loop

variable {σ : Type} (addLine : σ → JsString → σ) (wrapLength : Nat) (state : Reflow σ)

/-- The line has no room for the word. -/
def Overflows : Prop := state.line.length + state.word.length > wrapLength

instance : Decidable (state.Overflows wrapLength) := inferInstanceAs (Decidable (_ > _))

/-- The loop reads a character. -/
def read (c : UInt16) : Reflow σ :=
  if c = space ∨ c = newline then
    if state.Overflows wrapLength then
      { comment := addLine state.comment state.line, line := state.word.trim, word := [space] }
    else if c = newline then
      { comment := addLine state.comment (state.line ++ state.word), line := [], word := [] }
    else { state with line := state.line ++ state.word, word := [c] }
  else { state with word := state.word ++ [c] }

/-- The word and the line that are left after the last character. -/
def finish : σ :=
  let last :=
    if state.Overflows wrapLength then
      { state with comment := addLine state.comment state.line, line := state.word.trim }
    else { state with line := state.line ++ state.word }
  if last.line.length > 0 then addLine last.comment last.line else last.comment

/-- The loop from its start. -/
def reads (empty : σ) (text : JsString) : Reflow σ :=
  text.foldl (read addLine wrapLength) ⟨empty, [], []⟩

end Loop

end Reflow

/-- A line goes under the comment there is. -/
def addCommentLine (linePrefix comment line : JsString) : JsString :=
  (if comment.length > 0 then comment ++ [newline] else comment) ++ (linePrefix ++ line.trim)

def formatComment (linePrefix : JsString) (text : CommentText) (wrapLength : Nat) : JsString :=
  match text with
  | .undefined => []
  | text =>
    let addLine := addCommentLine linePrefix
    let comment := (Reflow.reads addLine wrapLength [] (joinLines text.textValue)).finish addLine
      wrapLength
    if comment.length > 0 then comment ++ [newline] else comment

/-- The `wrapLength` that the visitors leave to `formatComment`. -/
def defaultWrapLength : Nat := 80

/-- The lines of a text that is empty or ends with a newline. -/
def outputLines (output : JsString) : List JsString := (output.splitOn newline).dropLast

/-- The lines of a comment without their prefixes. -/
def contents (linePrefix output : JsString) : List JsString :=
  (outputLines output).map (·.drop linePrefix.length)

/-- The content is no wider than the line, or has no space to break it at. -/
def Wrapped (wrapLength : Nat) (content : JsString) : Prop :=
  content.length ≤ wrapLength ∨ space ∉ content

/-- Every line of the output is a comment line, the words are those of the text, and the
lines are no wider than they may be. -/
structure Reflows (linePrefix : JsString) (text : CommentText) (wrapLength : Nat)
    (output : JsString) : Prop where
  closed : output = [] ∨ output.getLast? = some newline
  prefixed : ∀ line ∈ outputLines output, linePrefix <+: line
  complete : (contents linePrefix output).flatMap JsString.words = text.textValue.words
  wrapped : ∀ content ∈ contents linePrefix output, Wrapped wrapLength content

/-! ### The layout -/

/-- The abstract comment: what its lines contain. -/
def addContent (layout : List JsString) (line : JsString) : List JsString := layout ++ [line.trim]

/-- The layout of a description. -/
def layout (wrapLength : Nat) (text : JsString) : List JsString :=
  (Reflow.reads addContent wrapLength [] (joinLines text)).finish addContent wrapLength

/-- The comment that a layout stands for. -/
def render (linePrefix : JsString) (layout : List JsString) : JsString :=
  layout.foldl (fun comment content =>
    (if comment.length > 0 then comment ++ [newline] else comment) ++ (linePrefix ++ content)) []

/-- The lines of a layout that are seen: an empty line under an empty comment without a
prefix leaves the comment empty. -/
def shown (linePrefix : JsString) (layout : List JsString) : List JsString :=
  if linePrefix = [] then layout.dropWhile (·.isEmpty) else layout

namespace Reflow

variable {σ τ : Type} {wrapLength : Nat}

/-- The same state over another kind of comment. -/
def map (view : σ → τ) (state : Reflow σ) : Reflow τ :=
  ⟨view state.comment, state.line, state.word⟩

section Simulation

variable {addLine : σ → JsString → σ} {addLine' : τ → JsString → τ} {view : σ → τ}

theorem read_map (agrees : ∀ comment line, view (addLine comment line) =
    addLine' (view comment) line) (state : Reflow σ) (c : UInt16) :
    (state.map view).read addLine' wrapLength c = (state.read addLine wrapLength c).map view := by
  unfold read
  change (if c = space ∨ c = newline then if state.Overflows wrapLength then _ else _ else _) = _
  split
  · split
    · simp [map, agrees]
    · split <;> simp [map, agrees]
  · rfl

theorem reads_map (agrees : ∀ comment line, view (addLine comment line) =
    addLine' (view comment) line) (empty : σ) (text : JsString) :
    reads addLine' wrapLength (view empty) text =
      (reads addLine wrapLength empty text).map view := by
  unfold reads
  generalize start : (⟨empty, [], []⟩ : Reflow σ) = state
  have mapped : (⟨view empty, [], []⟩ : Reflow τ) = state.map view := by rw [← start]; rfl
  rw [mapped]
  clear start mapped
  induction text generalizing state with
  | nil => rfl
  | cons c text ih => rw [List.foldl_cons, List.foldl_cons, read_map agrees, ih]

theorem finish_map (agrees : ∀ comment line, view (addLine comment line) =
    addLine' (view comment) line) (state : Reflow σ) :
    (state.map view).finish addLine' wrapLength = view (state.finish addLine wrapLength) := by
  unfold finish
  by_cases overflows : state.Overflows wrapLength
  · have same : (state.map view).Overflows wrapLength := overflows
    simp only [if_pos overflows, if_pos same]
    split <;> simp_all [map]
  · have same : ¬ (state.map view).Overflows wrapLength := overflows
    simp only [if_neg overflows, if_neg same]
    split <;> simp_all [map]

end Simulation

end Reflow

theorem render_concat (linePrefix : JsString) (layout : List JsString) (content : JsString) :
    render linePrefix (layout ++ [content]) =
      (if (render linePrefix layout).length > 0 then render linePrefix layout ++ [newline]
        else render linePrefix layout) ++ (linePrefix ++ content) := by
  unfold render
  rw [List.foldl_append]
  rfl

/-- The code writes the comment that its layout stands for. -/
theorem formatComment_eq_render (linePrefix : JsString) (text : CommentText) (wrapLength : Nat) :
    formatComment linePrefix text wrapLength =
      let comment := render linePrefix (layout wrapLength text.textValue)
      if comment.length > 0 then comment ++ [newline] else comment := by
  have agrees : ∀ layout line, render linePrefix (addContent layout line) =
      addCommentLine linePrefix (render linePrefix layout) line :=
    fun layout line => render_concat linePrefix layout line.trim
  have finished : ∀ text, render linePrefix (layout wrapLength text) =
      (Reflow.reads (addCommentLine linePrefix) wrapLength [] (joinLines text)).finish
        (addCommentLine linePrefix) wrapLength := by
    intro text
    unfold layout
    rw [← Reflow.finish_map agrees, ← Reflow.reads_map agrees]
    rfl
  cases text with
  | undefined => rfl
  | string text => simp only [formatComment, finished]
  | stringValue value => simp only [formatComment, finished]

theorem shown_concat (linePrefix : JsString) (layout : List JsString) (content : JsString) :
    shown linePrefix (layout ++ [content]) =
      if linePrefix = [] ∧ shown linePrefix layout = [] ∧ content = [] then []
      else shown linePrefix layout ++ [content] := by
  unfold shown
  by_cases bare : linePrefix = []
  · simp only [bare, if_true, true_and]
    rw [List.dropWhile_append]
    cases List.dropWhile (·.isEmpty) layout <;> cases content <;> simp
  · simp [bare]

/-- A closed comment is one comment line for each line of its layout that is seen. -/
theorem render_closed (linePrefix : JsString) (layout : List JsString) :
    (if (render linePrefix layout).length > 0 then render linePrefix layout ++ [newline]
      else render linePrefix layout) =
      (shown linePrefix layout).flatMap fun content => linePrefix ++ content ++ [newline] := by
  induction layout using List.reverseRecOn with
  | nil => simp [render, shown]
  | append_singleton layout content ih =>
    rw [render_concat, ih, shown_concat]
    by_cases hidden : linePrefix = [] ∧ shown linePrefix layout = [] ∧ content = []
    · rw [if_pos hidden]
      obtain ⟨rfl, none, rfl⟩ := hidden
      rw [none]
      rfl
    · have seen : ((shown linePrefix layout).flatMap
          (fun content => linePrefix ++ content ++ [newline]) ++
            (linePrefix ++ content)).length > 0 := by
        apply List.length_pos_iff.mpr
        intro empty
        obtain ⟨earlier, last⟩ := List.append_eq_nil_iff.mp empty
        obtain ⟨bare, blank⟩ := List.append_eq_nil_iff.mp last
        refine hidden ⟨bare, ?_, blank⟩
        cases before : shown linePrefix layout with
        | nil => rfl
        | cons first rest => simp [before] at earlier
      rw [if_neg hidden, if_pos seen, List.flatMap_append, List.append_assoc]
      simp

/-- Reading a closed comment back gives its lines. -/
theorem outputLines_closed {lines : List JsString} (free : ∀ line ∈ lines, newline ∉ line) :
    outputLines (lines.flatMap (· ++ [newline])) = lines := by
  suffices split : (lines.flatMap (· ++ [newline])).splitOn newline = lines ++ [[]] by
    rw [outputLines, split, List.dropLast_concat]
  induction lines with
  | nil => rfl
  | cons line lines ih =>
    rw [List.flatMap_cons, List.append_assoc, List.singleton_append,
      List.splitOn_append_cons_self_of_not_mem (free line (List.mem_cons_self ..)),
      ih fun line member => free line (List.mem_cons_of_mem _ member)]
    rfl

theorem shown_subset (linePrefix : JsString) (layout : List JsString) :
    shown linePrefix layout ⊆ layout := by
  unfold shown
  split
  · exact (List.dropWhile_sublist _).subset
  · exact List.Subset.refl _

/-- The output is empty or closed, has the comment lines of the layout that are seen, and
nothing else. -/
theorem formatComment_lines {linePrefix : JsString} (bounded : newline ∉ linePrefix)
    (text : CommentText) (wrapLength : Nat)
    (free : ∀ content ∈ layout wrapLength text.textValue, newline ∉ content) :
    let output := formatComment linePrefix text wrapLength
    let lines := shown linePrefix (layout wrapLength text.textValue)
    (output = [] ∨ output.getLast? = some newline) ∧
      outputLines output = lines.map (linePrefix ++ ·) ∧ contents linePrefix output = lines := by
  intro output lines
  have closed : output = (lines.map (linePrefix ++ ·)).flatMap (· ++ [newline]) := by
    rw [List.flatMap_map]
    exact (formatComment_eq_render ..).trans (render_closed ..)
  have read : outputLines output = lines.map (linePrefix ++ ·) := by
    rw [closed]
    apply outputLines_closed
    intro line member
    obtain ⟨content, seen, rfl⟩ := List.mem_map.mp member
    rw [List.mem_append, not_or]
    exact ⟨bounded, free content (shown_subset linePrefix _ seen)⟩
  refine ⟨?_, read, ?_⟩
  · rw [closed]
    cases lines using List.reverseRecOn with
    | nil => exact .inl rfl
    | append_singleton lines last => exact .inr (by simp)
  · rw [contents, read, List.map_map]
    simp [Function.comp_def]

/-! ### The words of a text whose newlines are joined -/

theorem newline_isWhiteSpace : isWhiteSpace newline := by decide

theorem space_isWhiteSpace : isWhiteSpace space := by decide

/-- A character of the joined text stands for itself or for a newline. -/
def StandsFor (joined c : UInt16) : Prop := joined = c ∨ joined = space ∧ c = newline

theorem replaceNewlines_standsFor (previous : UInt16) (text : JsString) :
    List.Forall₂ StandsFor (replaceNewlines previous text) text := by
  fun_induction replaceNewlines previous text with
  | case1 previous c next rest replaced ih =>
    refine .cons ?_ ih
    simp only [replaced]
    split
    · rename_i alone
      exact .inr ⟨rfl, alone.1⟩
    · exact .inl rfl
  | case2 => exact List.forall₂_same.mpr fun _ _ => .inl rfl

theorem joinLines_standsFor (text : JsString) : List.Forall₂ StandsFor (joinLines text) text := by
  cases text with
  | nil => exact .nil
  | cons first rest => exact .cons (.inl rfl) (replaceNewlines_standsFor first rest)

/-- Joining lines changes no word. -/
theorem words_of_standsFor {joined text : JsString} (alike : List.Forall₂ StandsFor joined text) :
    joined.words = text.words := by
  refine words_eq_of_forall₂ (alike.imp fun a b standsFor => ?_)
  rcases standsFor with rfl | ⟨rfl, rfl⟩
  · exact .inl rfl
  · exact .inr ⟨space_isWhiteSpace, newline_isWhiteSpace⟩

/-! ### The loop -/

/-- The characters that end a word in the loop. -/
def IsSeparator (c : UInt16) : Prop := c = space ∨ c = newline

instance (c : UInt16) : Decidable (IsSeparator c) := inferInstanceAs (Decidable (_ ∨ _))

theorem IsSeparator.isWhiteSpace {c : UInt16} (separator : IsSeparator c) : isWhiteSpace c := by
  rcases separator with rfl | rfl
  · exact space_isWhiteSpace
  · exact newline_isWhiteSpace

theorem JsString.words_trim (text : JsString) : text.trim.words = text.words :=
  Words.words_trim text

/-- What a line may contain. -/
structure Proper (wrapLength : Nat) (content : JsString) : Prop where
  wrapped : Wrapped wrapLength content
  free : newline ∉ content

theorem Proper.sublist {wrapLength : Nat} {part whole : JsString} (proper : Proper wrapLength whole)
    (within : part.Sublist whole) : Proper wrapLength part where
  wrapped := proper.wrapped.imp within.length_le.trans fun free member =>
    free (within.subset member)
  free := fun member => proper.free (within.subset member)

theorem proper_nil (wrapLength : Nat) : Proper wrapLength [] := ⟨.inr (by simp), by simp⟩

section AddContent

variable {wrapLength : Nat} {contents : List JsString} {line : JsString}

theorem addContent_proper (lines : ∀ content ∈ contents, Proper wrapLength content)
    (proper : Proper wrapLength line) :
    ∀ content ∈ addContent contents line, Proper wrapLength content := by
  intro content member
  rcases List.mem_append.mp member with earlier | last
  · exact lines content earlier
  · rw [List.mem_singleton.mp last]
    exact proper.sublist (trim_sublist line)

theorem wordsOf_addContent (contents : List JsString) (line : JsString) :
    wordsOf isWhiteSpace (addContent contents line) =
      wordsOf isWhiteSpace contents ++ line.words := by
  unfold wordsOf addContent
  rw [List.flatMap_append, List.flatMap_singleton]
  exact congrArg _ line.words_trim

end AddContent

namespace Reflow

section Steps

variable {σ : Type} {addLine : σ → JsString → σ} {wrapLength : Nat} {state : Reflow σ} {c : UInt16}

theorem read_letter (letter : ¬ IsSeparator c) :
    state.read addLine wrapLength c = { state with word := state.word ++ [c] } := if_neg letter

/-- The wrapping branch ends the line in front of the word. -/
theorem read_overflow (separator : IsSeparator c) (overflows : state.Overflows wrapLength) :
    state.read addLine wrapLength c =
      ⟨addLine state.comment state.line, state.word.trim, [space]⟩ := by
  have ends : c = space ∨ c = newline := separator
  unfold read
  rw [if_pos ends, if_pos overflows]

theorem read_newline (fits : ¬ state.Overflows wrapLength) :
    state.read addLine wrapLength newline =
      ⟨addLine state.comment (state.line ++ state.word), [], []⟩ := by
  unfold read
  rw [if_pos (.inr rfl), if_neg fits, if_pos rfl]

theorem read_space (fits : ¬ state.Overflows wrapLength) :
    state.read addLine wrapLength space =
      ⟨state.comment, state.line ++ state.word, [space]⟩ := by
  unfold read
  rw [if_pos (.inl rfl), if_neg fits, if_neg (by decide)]

end Steps

/-- The loop has laid out the words of `done`; of the text after it has read `token`, which
is the word without the space in front of it. -/
structure Reading (wrapLength : Nat) (done token : JsString) (state : Reflow (List JsString)) :
    Prop where
  word : state.word = space :: token ∨ state.word = token ∧ state.line = []
  separated : ∀ c ∈ done.getLast?, isWhiteSpace c
  letters : ∀ c ∈ token, ¬ IsSeparator c
  complete : wordsOf isWhiteSpace state.comment ++ state.line.words = done.words
  line : Proper wrapLength state.line
  lines : ∀ content ∈ state.comment, Proper wrapLength content

namespace Reading

variable {wrapLength : Nat} {done token : JsString} {state : Reflow (List JsString)} {c : UInt16}

theorem start (wrapLength : Nat) : Reading wrapLength [] [] ⟨[], [], []⟩ where
  word := .inr ⟨rfl, rfl⟩
  separated := by simp
  letters := by simp
  complete := rfl
  line := proper_nil wrapLength
  lines := by simp

section Word

variable (reading : Reading wrapLength done token state)
include reading

/-- The word has the words of the token. -/
theorem word_words : state.word.words = token.words := by
  rcases reading.word with front | ⟨bare, -⟩
  · rw [front]
    exact words_cons space_isWhiteSpace token
  · rw [bare]

theorem word_trim : state.word.trim = token.trim := by
  rcases reading.word with front | ⟨bare, -⟩
  · rw [front]
    exact congrArg (·.rdropWhile isWhiteSpace) (List.dropWhile_cons_of_pos space_isWhiteSpace)
  · rw [bare]

/-- The word does not run into the line. -/
theorem line_word_words : (state.line ++ state.word).words = state.line.words ++ token.words := by
  rcases reading.word with front | ⟨bare, empty⟩
  · rw [front]
    exact words_append_cons space_isWhiteSpace state.line token
  · rw [bare, empty]
    rfl

/-- The trimmed word is a single word. -/
theorem word_trim_proper : Proper wrapLength state.word.trim := by
  rw [reading.word_trim]
  have within : token.trim ⊆ token := (trim_sublist token).subset
  exact ⟨.inr fun member => reading.letters space (within member) (.inl rfl),
    fun member => reading.letters newline (within member) (.inr rfl)⟩

/-- A line with room for the word takes it. -/
theorem line_word_proper (fits : ¬ state.Overflows wrapLength) :
    Proper wrapLength (state.line ++ state.word) := by
  refine ⟨.inl ?_, ?_⟩
  · rw [List.length_append]
    exact Nat.le_of_not_lt fits
  · have letters : newline ∉ token := fun member => reading.letters newline member (.inr rfl)
    rw [List.mem_append, not_or]
    refine ⟨reading.line.free, ?_⟩
    rcases reading.word with front | ⟨bare, -⟩
    · rw [front, List.mem_cons, not_or]
      exact ⟨by decide, letters⟩
    · rw [bare]
      exact letters

/-- The words read so far, once the token ends. -/
theorem done_token_words : (done ++ token).words = done.words ++ token.words :=
  words_append_of_getLast reading.separated token

/-- A letter goes to the token. -/
theorem letter (letter : ¬ IsSeparator c) :
    Reading wrapLength done (token ++ [c]) (state.read addContent wrapLength c) := by
  rw [read_letter letter]
  refine { reading with word := ?_, letters := ?_ }
  · rcases reading.word with front | ⟨bare, empty⟩
    · exact .inl (by rw [front]; rfl)
    · exact .inr ⟨by rw [bare], empty⟩
  · intro c' member
    rcases List.mem_append.mp member with earlier | last
    · exact reading.letters c' earlier
    · rw [List.mem_singleton.mp last]
      exact letter

/-- A separator lays the token out, in each of the three branches. -/
theorem separator (separator : IsSeparator c) :
    Reading wrapLength (done ++ token ++ [c]) [] (state.read addContent wrapLength c) := by
  have separated : ∀ c' ∈ (done ++ token ++ [c]).getLast?, isWhiteSpace c' := by
    intro c' last
    rw [List.getLast?_concat, Option.mem_some_iff] at last
    rw [← last]
    exact separator.isWhiteSpace
  have total : (done ++ token ++ [c]).words =
      wordsOf isWhiteSpace state.comment ++ state.line.words ++ token.words := by
    rw [reading.complete, ← reading.done_token_words]
    exact words_concat separator.isWhiteSpace _
  by_cases overflows : state.Overflows wrapLength
  · rw [read_overflow separator overflows]
    refine ⟨.inl rfl, separated, by simp, ?_, reading.word_trim_proper,
      addContent_proper reading.lines reading.line⟩
    rw [wordsOf_addContent, total]
    exact congrArg _ (state.word.words_trim.trans reading.word_words)
  · have added := reading.line_word_proper overflows
    rcases separator with rfl | rfl
    · rw [read_space overflows]
      refine ⟨.inl rfl, separated, by simp, ?_, added, reading.lines⟩
      rw [reading.line_word_words, total, List.append_assoc]
    · rw [read_newline overflows]
      refine ⟨.inr ⟨rfl, rfl⟩, separated, by simp, ?_, proper_nil wrapLength,
        addContent_proper reading.lines added⟩
      rw [wordsOf_addContent, reading.line_word_words, total, ← List.append_assoc]
      exact List.append_nil _

/-- After the loop the token is laid out as well. -/
theorem finish :
    wordsOf isWhiteSpace (state.finish addContent wrapLength) = (done ++ token).words ∧
      ∀ content ∈ state.finish addContent wrapLength, Proper wrapLength content := by
  -- the last line is added unless it is empty
  have flush : ∀ (contents : List JsString) (line : JsString),
      (∀ content ∈ contents, Proper wrapLength content) → Proper wrapLength line →
      let flushed := if line.length > 0 then addContent contents line else contents
      wordsOf isWhiteSpace flushed = wordsOf isWhiteSpace contents ++ line.words ∧
        ∀ content ∈ flushed, Proper wrapLength content := by
    intro contents line lines proper
    cases line with
    | nil => exact ⟨(List.append_nil _).symm, lines⟩
    | cons c line => exact ⟨wordsOf_addContent contents _, addContent_proper lines proper⟩
  unfold Reflow.finish
  by_cases overflows : state.Overflows wrapLength
  · simp only [if_pos overflows]
    obtain ⟨words, lines⟩ := flush (addContent state.comment state.line) state.word.trim
      (addContent_proper reading.lines reading.line) reading.word_trim_proper
    refine ⟨?_, lines⟩
    rw [words, wordsOf_addContent, reading.done_token_words, ← reading.complete,
      JsString.words_trim, reading.word_words]
  · simp only [if_neg overflows]
    obtain ⟨words, lines⟩ := flush state.comment (state.line ++ state.word) reading.lines
      (reading.line_word_proper overflows)
    refine ⟨?_, lines⟩
    rw [words, reading.line_word_words, reading.done_token_words, ← reading.complete,
      List.append_assoc]

end Word

/-- The loop lays out all it reads but the last token. -/
theorem reads (wrapLength : Nat) (text : JsString) :
    ∃ done token, text = done ++ token ∧
      Reading wrapLength done token (reads addContent wrapLength [] text) := by
  induction text using List.reverseRecOn with
  | nil => exact ⟨[], [], rfl, .start wrapLength⟩
  | append_singleton text c ih =>
    obtain ⟨done, token, rfl, reading⟩ := ih
    unfold Reflow.reads at reading ⊢
    rw [List.foldl_append, List.foldl_cons, List.foldl_nil]
    by_cases separator : IsSeparator c
    · exact ⟨done ++ token ++ [c], [], by simp, reading.separator separator⟩
    · exact ⟨done, token ++ [c], by simp, reading.letter separator⟩

end Reading

end Reflow

/-- A layout has the words of its text, on proper lines. -/
theorem layout_spec (wrapLength : Nat) (text : JsString) :
    wordsOf isWhiteSpace (layout wrapLength text) = text.words ∧
      ∀ content ∈ layout wrapLength text, Proper wrapLength content := by
  obtain ⟨done, token, read, reading⟩ := Reflow.Reading.reads wrapLength (joinLines text)
  obtain ⟨words, lines⟩ := reading.finish
  refine ⟨?_, lines⟩
  rw [← words_of_standsFor (joinLines_standsFor text), read]
  exact words

/-- Empty lines that are not seen have no word. -/
theorem shown_words (linePrefix : JsString) (layout : List JsString) :
    wordsOf isWhiteSpace (shown linePrefix layout) = wordsOf isWhiteSpace layout := by
  unfold shown
  split
  · induction layout with
    | nil => rfl
    | cons content layout ih =>
      cases content with
      | nil => exact ih
      | cons c content => rfl
  · rfl

/-- Comments are re-flowed safely and without loss. -/
theorem formatComment_reflows (linePrefix : JsString) (bounded : newline ∉ linePrefix)
    (text : CommentText) (wrapLength : Nat) :
    Reflows linePrefix text wrapLength (formatComment linePrefix text wrapLength) := by
  obtain ⟨words, lines⟩ := layout_spec wrapLength text.textValue
  obtain ⟨closed, read, content⟩ :=
    formatComment_lines bounded text wrapLength fun content member => (lines content member).free
  refine ⟨closed, ?_, ?_, ?_⟩
  · rw [read]
    intro line member
    obtain ⟨content, -, rfl⟩ := List.mem_map.mp member
    exact List.prefix_append linePrefix content
  · rw [content]
    exact (shown_words linePrefix _).trans words
  · rw [content]
    exact fun content member => (lines content (shown_subset linePrefix _ member)).wrapped

/-- A comment with a wrapped line and a blank line. -/
theorem wrapped_comment_reflows :
    newline ∉ [0x2F, 0x2F, 0x2F, space] ∧
      Reflows [0x2F, 0x2F, 0x2F, space]
        (.string [0x61, space, 0x62, 0x63, newline, newline, 0x64]) 3
        (formatComment [0x2F, 0x2F, 0x2F, space]
          (.string [0x61, space, 0x62, 0x63, newline, newline, 0x64]) 3) :=
  ⟨by decide, formatComment_reflows _ (by decide) _ 3⟩

end Wapc.Codegen
