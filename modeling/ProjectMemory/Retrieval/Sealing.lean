import ProjectMemory.Foundation.Markers
import ProjectMemory.Retrieval.Prompting

/-!
# The regions of a prompt

No text of a document or of the belief state ends the region it is written
into: up to the question the closing marker of a region is found only on the
line that the builder wrote.
-/

namespace ProjectMemory

namespace Json

open Foundation

mutual

/-- The texts and keys of a value. -/
def strings : Json → List String
  | .str text => [text]
  | .arr items => stringsItems items
  | .obj members => stringsMembers members
  | _ => []

def stringsItems : List Json → List String
  | [] => []
  | item :: items => strings item ++ stringsItems items

def stringsMembers : List (String × Json) → List String
  | [] => []
  | (key, value) :: members =>
      key :: (strings value ++ stringsMembers members)

end

mutual

/-- Every text of a value is a string of its JSON. -/
theorem dumpsString_isInfix :
    ∀ (value : Json) {text : String}, text ∈ value.strings →
      dumpsString text <:+: value.dumps
  | .null, _, member => by cases member
  | .bool _, _, member => by cases member
  | .num _ _, _, member => by cases member
  | .str value, text, member => by
      rw [List.mem_singleton.mp member]
      exact List.infix_rfl
  | .arr items, text, member => by
      obtain ⟨line, isItem, occurs⟩ := dumpsString_isInfix_item items member
      have inBody : dumpsString text <:+: [','].intercalate (dumpsItems items) :=
        occurs.trans (isInfix_intercalate_of_mem isItem)
      rw [dumps]
      exact List.infix_append_of_infix_left
        (List.infix_cons_iff.mpr (Or.inr inBody))
  | .obj members, text, member => by
      obtain ⟨line, isMember, occurs⟩ :=
        dumpsString_isInfix_member members member
      have inBody : dumpsString text <:+: [','].intercalate (dumpsMembers members) :=
        occurs.trans (isInfix_intercalate_of_mem isMember)
      rw [dumps]
      exact List.infix_append_of_infix_left
        (List.infix_cons_iff.mpr (Or.inr inBody))

theorem dumpsString_isInfix_item :
    ∀ (items : List Json) {text : String}, text ∈ stringsItems items →
      ∃ line ∈ dumpsItems items, dumpsString text <:+: line
  | [], _, member => by cases member
  | item :: items, text, member => by
      rcases List.mem_append.mp member with here | later
      · exact ⟨dumps item, List.mem_cons_self,
          dumpsString_isInfix item here⟩
      · obtain ⟨line, isItem, occurs⟩ := dumpsString_isInfix_item items later
        exact ⟨line, List.mem_cons_of_mem _ isItem, occurs⟩

theorem dumpsString_isInfix_member :
    ∀ (members : List (String × Json)) {text : String},
      text ∈ stringsMembers members →
      ∃ line ∈ dumpsMembers members, dumpsString text <:+: line
  | [], _, member => by cases member
  | (key, value) :: members, text, member => by
      rcases List.mem_cons.mp member with rfl | inRest
      · exact ⟨_, List.mem_cons_self, List.infix_append_left⟩
      rcases List.mem_append.mp inRest with here | later
      · refine ⟨_, List.mem_cons_self, ?_⟩
        exact List.infix_append_of_infix_right
          (List.infix_cons_iff.mpr
            (Or.inr (dumpsString_isInfix value here)))
      · obtain ⟨line, isMember, occurs⟩ :=
          dumpsString_isInfix_member members later
        exact ⟨line, List.mem_cons_of_mem _ isMember, occurs⟩

end

end Json

namespace Retrieval

open Foundation

section Law

variable {Score : Type}

/-- The lines in front of the region of the passages. -/
def stateLines : Option Json → List (List Char)
  | some content =>
      ["<project_state>".toList, sealText content.dumps,
        "</project_state>".toList]
  | none => ["(no project state available)".toList]

/-- The prompt up to its question keeps the material in the two regions, and
each closing marker occurs once, on the line after the material. -/
structure Contained (beliefState : Option Json)
    (chunks : List (RetrievedChunk Score)) (includeProjectId : Bool)
    (front : List Char) : Prop where
  sources : Encloses '\n' "<sources>".toList "</sources>".toList
    (stateLines beliefState ++ [[]]) (sourceLines includeProjectId 1 chunks)
    [[], []] front
  passage : ∀ chunk ∈ chunks,
    sealText chunk.text.toList ∈ sourceLines includeProjectId 1 chunks ∧
      ∃ header ∈ sourceLines includeProjectId 1 chunks,
        sealText chunk.filename.toList <:+: header
  projectState : ∀ content, beliefState = some content →
    Encloses '\n' "<project_state>".toList "</project_state>".toList []
      [sealText content.dumps]
      ([[], "<sources>".toList] ++ sourceLines includeProjectId 1 chunks ++
        ["</sources>".toList, [], []]) front ∧
    ∀ text ∈ content.strings,
      sealText (Json.dumpsString text) <:+: sealText content.dumps
  noProjectState : beliefState = none →
    ¬ "</project_state>".toList <:+: front

end Law

/-! ## Sealed texts -/

section Sealed

variable {Score : Type}

/-- Neither closing marker occurs in a text. -/
def Sealed (text : List Char) : Prop :=
  ¬ "</sources>".toList <:+: text ∧ ¬ "</project_state>".toList <:+: text

theorem sealed_of_notMem {text : List Char} (absent : '<' ∉ text) :
    Sealed text :=
  ⟨not_isInfix_of_notMem absent, not_isInfix_of_notMem absent⟩

/-- The second replacement writes `<\`, so it does not bring the first marker
back. -/
theorem sealed_sealText (text : List Char) : Sealed (sealText text) := by
  constructor
  · exact not_isInfix_replaceAll_self (by decide) (by decide) (by decide) _
  · refine not_isInfix_replaceAll_of_not (by decide) (by decide) (by decide) ?_
    exact not_isInfix_replaceAll_self (by decide) (by decide) (by decide) text

theorem Sealed.append_of_notMem {left right : List Char}
    (absent : '<' ∉ left) (isSealed : Sealed right) :
    Sealed (left ++ right) :=
  ⟨fun occurs => isSealed.1
      ((isInfix_append_iff_of_notMem absent).mp occurs),
    fun occurs => isSealed.2
      ((isInfix_append_iff_of_notMem absent).mp occurs)⟩

/-- A character that neither marker contains separates two sealed texts. -/
theorem Sealed.append_separated {item : Char}
    (absent : item ∉ "</sources>".toList ∧ item ∉ "</project_state>".toList)
    {left right : List Char} (leftSealed : Sealed left)
    (rightSealed : Sealed right) : Sealed (left ++ item :: right) := by
  constructor
  · rw [isInfix_append_cons_iff absent.1]
    exact not_or.mpr ⟨leftSealed.1, rightSealed.1⟩
  · rw [isInfix_append_cons_iff absent.2]
    exact not_or.mpr ⟨leftSealed.2, rightSealed.2⟩

theorem Sealed.append_quoted {left right : List Char}
    (leftSealed : Sealed left) (rightSealed : Sealed right) :
    Sealed (left ++ '"' :: right) :=
  leftSealed.append_separated (by decide) rightSealed

theorem Sealed.append_line {left right : List Char}
    (leftSealed : Sealed left) (rightSealed : Sealed right) :
    Sealed (left ++ '\n' :: right) :=
  leftSealed.append_separated (by decide) rightSealed

theorem sealText_of_sealed {text : List Char} (isSealed : Sealed text) :
    sealText text = text := by
  unfold sealText
  rw [replaceAll_of_not_isInfix isSealed.2,
    replaceAll_of_not_isInfix isSealed.1]

theorem Sealed.of_isInfix {whole part : List Char}
    (isSealed : Sealed whole) (isPart : part <:+: whole) : Sealed part :=
  ⟨fun occurs => isSealed.1 (occurs.trans isPart),
    fun occurs => isSealed.2 (occurs.trans isPart)⟩

theorem sealed_nil : Sealed [] := sealed_of_notMem List.not_mem_nil

/-- Sealing works on the pieces between quotation marks. -/
theorem sealText_append_quoted (left right : List Char) :
    sealText (left ++ '"' :: right) =
      sealText left ++ '"' :: sealText right := by
  unfold sealText
  rw [replaceAll_append_cons (by decide) (by decide),
    replaceAll_append_cons (by decide) (by decide)]

theorem sealText_dumpsString_isInfix {text : String} {whole : List Char}
    (occurs : Json.dumpsString text <:+: whole) :
    sealText (Json.dumpsString text) <:+: sealText whole := by
  obtain ⟨before, after, split⟩ := occurs
  have nothing : sealText [] = [] := rfl
  refine ⟨sealText before, sealText after, ?_⟩
  have quoted : Json.dumpsString text =
      [] ++ '"' :: (text.toList.flatMap Json.escapeChar ++ '"' :: []) := by
    simp [Json.dumpsString]
  have spread : before ++ Json.dumpsString text ++ after =
      before ++ '"' :: (text.toList.flatMap Json.escapeChar ++
        '"' :: after) := by
    simp [quoted]
  rw [← split, spread, quoted, sealText_append_quoted,
    sealText_append_quoted, sealText_append_quoted, sealText_append_quoted,
    nothing]
  simp

theorem notMem_toString (number : Nat) : '<' ∉ (toString number).toList := by
  intro member
  have isDigit := isDigit_of_mem_repr member
  revert isDigit
  decide

theorem notMem_chars (id : Uuid) : '<' ∉ id.chars := by
  intro member
  rcases Uuid.mem_chars member with isHyphen | ⟨digit, bound, isDigit⟩
  · cases isHyphen
  · have table : ∀ digit < 16, '<' ≠ Nat.digitChar digit := by decide
    exact table digit bound isDigit

/-- What follows the filename in a header. -/
def headerTail (includeProjectId : Bool) (chunk : RetrievedChunk Score) :
    List Char :=
  " document_id=\"".toList ++ (chunk.documentId.chars ++
    ("\" chunk=".toList ++ ((toString chunk.chunkIndex).toList ++
      if includeProjectId then
        " project_id=\"".toList ++ (chunk.projectId.chars ++ "\"".toList)
      else [])))

theorem sourceHeader_eq (includeProjectId : Bool) (label : Nat)
    (chunk : RetrievedChunk Score) :
    sourceHeader includeProjectId label chunk =
      ("[S".toList ++ (toString label).toList ++ "] filename=\"".toList) ++
        (sealText chunk.filename.toList ++
          '"' :: headerTail includeProjectId chunk) := by
  have quote : "\" document_id=\"".toList =
      '"' :: " document_id=\"".toList := rfl
  unfold sourceHeader headerTail
  rw [quote]
  cases includeProjectId with
  | false =>
      simp only [List.append_assoc, List.cons_append, Bool.false_eq_true,
        if_false]
  | true => simp only [List.append_assoc, List.cons_append, if_true]

theorem notMem_headerTail (includeProjectId : Bool)
    (chunk : RetrievedChunk Score) :
    '<' ∉ headerTail includeProjectId chunk := by
  have documentId := notMem_chars chunk.documentId
  have chunkIndex := notMem_toString chunk.chunkIndex
  have projectId := notMem_chars chunk.projectId
  have literals : '<' ∉ " document_id=\"".toList ∧
      '<' ∉ "\" chunk=".toList ∧ '<' ∉ " project_id=\"".toList ∧
      '<' ∉ "\"".toList := by
    decide
  obtain ⟨first, second, third, fourth⟩ := literals
  unfold headerTail
  cases includeProjectId with
  | false =>
      simp only [List.mem_append, first, second, documentId, chunkIndex,
        Bool.false_eq_true, if_false, List.not_mem_nil, or_false,
        not_false_eq_true]
  | true =>
      simp only [List.mem_append, first, second, third, fourth, documentId,
        chunkIndex, projectId, if_true, or_false, not_false_eq_true]

theorem sealed_sourceHeader (includeProjectId : Bool) (label : Nat)
    (chunk : RetrievedChunk Score) :
    Sealed (sourceHeader includeProjectId label chunk) := by
  rw [sourceHeader_eq]
  refine Sealed.append_of_notMem ?_ ((sealed_sealText _).append_quoted
    (sealed_of_notMem (notMem_headerTail includeProjectId chunk)))
  have number := notMem_toString label
  have literals : '<' ∉ "[S".toList ∧ '<' ∉ "] filename=\"".toList := by
    decide
  simp only [List.mem_append, number, literals, or_false,
    not_false_eq_true]

theorem filename_isInfix_sourceHeader (includeProjectId : Bool) (label : Nat)
    (chunk : RetrievedChunk Score) :
    sealText chunk.filename.toList <:+:
      sourceHeader includeProjectId label chunk := by
  rw [sourceHeader_eq]
  exact List.infix_append_of_infix_right List.infix_append_left

/-- Every line of the passages is sealed. -/
theorem sealed_of_mem_sourceLines {includeProjectId : Bool}
    {chunks : List (RetrievedChunk Score)} {line : List Char} :
    ∀ {label : Nat}, line ∈ sourceLines includeProjectId label chunks →
      Sealed line := by
  induction chunks with
  | nil =>
      intro label member
      cases member
  | cons chunk chunks inductionHypothesis =>
      intro label member
      simp only [sourceLines, List.mem_cons] at member
      rcases member with rfl | rfl | rfl | later
      · exact sealed_sourceHeader includeProjectId label chunk
      · exact sealed_sealText chunk.text.toList
      · exact sealed_of_notMem List.not_mem_nil
      · exact inductionHypothesis later

/-- Every passage stands on the lines of its chunk. -/
theorem passage_mem_sourceLines {includeProjectId : Bool}
    {chunks : List (RetrievedChunk Score)} {chunk : RetrievedChunk Score}
    (member : chunk ∈ chunks) :
    ∀ label, sealText chunk.text.toList ∈
        sourceLines includeProjectId label chunks ∧
      ∃ header ∈ sourceLines includeProjectId label chunks,
        sealText chunk.filename.toList <:+: header := by
  induction chunks with
  | nil => cases member
  | cons first chunks inductionHypothesis =>
      intro label
      simp only [sourceLines, List.mem_cons]
      rcases List.mem_cons.mp member with rfl | later
      · exact ⟨Or.inr (Or.inl rfl), _, Or.inl rfl,
          filename_isInfix_sourceHeader includeProjectId label chunk⟩
      · obtain ⟨text, header, isLine, occurs⟩ :=
          inductionHypothesis later (label + 1)
        exact ⟨Or.inr (Or.inr (Or.inr text)), header,
          Or.inr (Or.inr (Or.inr isLine)), occurs⟩

end Sealed

/-! ## The regions -/

section Proof

variable {Score : Type}

/-- The lines of the prompt up to its question. -/
def frontLines (beliefState : Option Json)
    (chunks : List (RetrievedChunk Score)) (includeProjectId : Bool) :
    List (List Char) :=
  stateLines beliefState ++ ([] :: "<sources>".toList ::
    (sourceLines includeProjectId 1 chunks ++
      ["</sources>".toList, [], []]))

theorem buildUserPrompt_eq (beliefState : Option Json)
    (chunks : List (RetrievedChunk Score)) (question : String)
    (includeProjectId : Bool) :
    (buildUserPrompt beliefState chunks question includeProjectId).toList =
      List.intercalate ['\n']
        (frontLines beliefState chunks includeProjectId) ++
        "Question:\n".toList ++ question.toList := by
  let lines := stateLines beliefState ++ ([] :: "<sources>".toList ::
    (sourceLines includeProjectId 1 chunks ++ ["</sources>".toList, []]))
  have nonempty : lines ≠ [] := by
    apply List.append_ne_nil_of_right_ne_nil
    exact List.cons_ne_nil _ _
  have isPrompt :
      (buildUserPrompt beliefState chunks question includeProjectId).toList =
        List.intercalate ['\n']
          (lines ++ ["Question:".toList, question.toList]) := by
    unfold buildUserPrompt
    rw [String.toList_ofList]
    cases beliefState <;> simp [lines, stateLines]
  have isFront : frontLines beliefState chunks includeProjectId =
      lines ++ [[]] := by
    simp [frontLines, lines]
  have isQuestion : "Question:\n".toList = "Question:".toList ++ ['\n'] := rfl
  rw [isPrompt, isFront,
    intercalate_append nonempty (List.cons_ne_nil _ _),
    intercalate_append nonempty (List.cons_ne_nil _ _),
    List.intercalate_cons_cons, List.intercalate_singleton,
    List.intercalate_singleton, isQuestion]
  simp only [List.append_assoc, List.cons_append, List.nil_append]

theorem free_stateLines {beliefState : Option Json} {line : List Char}
    (member : line ∈ stateLines beliefState) :
    ¬ "</sources>".toList <:+: line := by
  cases beliefState with
  | none =>
      rw [List.mem_singleton.mp member]
      exact not_isInfix_of_notMem (by decide)
  | some content =>
      simp only [stateLines, List.mem_cons, List.not_mem_nil, or_false]
        at member
      rcases member with rfl | rfl | rfl
      · simp [List.infix_cons_iff]
      · exact (sealed_sealText content.dumps).1
      · simp [List.infix_cons_iff]

theorem encloses_sources (beliefState : Option Json)
    (chunks : List (RetrievedChunk Score)) (includeProjectId : Bool) :
    Encloses '\n' "<sources>".toList "</sources>".toList
      (stateLines beliefState ++ [[]]) (sourceLines includeProjectId 1 chunks)
      [[], []]
      (List.intercalate ['\n']
        (frontLines beliefState chunks includeProjectId)) := by
  have isFront : frontLines beliefState chunks includeProjectId =
      (stateLines beliefState ++ [[]]) ++ "<sources>".toList ::
        (sourceLines includeProjectId 1 chunks ++
          "</sources>".toList :: [[], []]) := by
    simp [frontLines]
  rw [isFront]
  refine encloses_of_lines (by decide) (List.cons_ne_nil _ _) ?_ ?_
  · intro line member
    simp only [List.mem_append, List.mem_cons, List.not_mem_nil, or_false]
      at member
    rcases member with (inState | rfl) | rfl | inSources
    · exact free_stateLines inState
    · exact not_isInfix_of_notMem List.not_mem_nil
    · simp [List.infix_cons_iff]
    · exact (sealed_of_mem_sourceLines inSources).1
  · intro line member
    simp only [List.mem_cons, List.not_mem_nil, or_false, or_self] at member
    subst member
    exact not_isInfix_of_notMem List.not_mem_nil

/-- The lines after the region of the belief state. -/
theorem free_afterState {chunks : List (RetrievedChunk Score)}
    {includeProjectId : Bool} {line : List Char}
    (member : line ∈ [[], "<sources>".toList] ++
      sourceLines includeProjectId 1 chunks ++
        ["</sources>".toList, [], []]) :
    ¬ "</project_state>".toList <:+: line := by
  simp only [List.mem_append, List.mem_cons, List.not_mem_nil, or_false,
    or_self] at member
  rcases member with ((rfl | rfl) | inSources) | rfl | rfl
  · exact not_isInfix_of_notMem List.not_mem_nil
  · simp [List.infix_cons_iff]
  · exact (sealed_of_mem_sourceLines inSources).2
  · simp [List.infix_cons_iff]
  · exact not_isInfix_of_notMem List.not_mem_nil

theorem encloses_projectState (content : Json)
    (chunks : List (RetrievedChunk Score)) (includeProjectId : Bool) :
    Encloses '\n' "<project_state>".toList "</project_state>".toList []
      [sealText content.dumps]
      ([[], "<sources>".toList] ++ sourceLines includeProjectId 1 chunks ++
        ["</sources>".toList, [], []])
      (List.intercalate ['\n']
        (frontLines (some content) chunks includeProjectId)) := by
  have isFront : frontLines (some content) chunks includeProjectId =
      [] ++ "<project_state>".toList ::
        ([sealText content.dumps] ++ "</project_state>".toList ::
          ([[], "<sources>".toList] ++
            sourceLines includeProjectId 1 chunks ++
              ["</sources>".toList, [], []])) := by
    simp [frontLines, stateLines]
  rw [isFront]
  refine encloses_of_lines (by decide) (by simp) ?_
    (fun line member => free_afterState member)
  intro line member
  simp only [List.nil_append, List.mem_cons, List.not_mem_nil, or_false]
    at member
  rcases member with rfl | rfl
  · simp [List.infix_cons_iff]
  · exact (sealed_sealText content.dumps).2

theorem not_isInfix_frontLines_none
    (chunks : List (RetrievedChunk Score)) (includeProjectId : Bool) :
    ¬ "</project_state>".toList <:+:
      List.intercalate ['\n'] (frontLines none chunks includeProjectId) := by
  have isFront : frontLines none chunks includeProjectId =
      "(no project state available)".toList ::
        ([[], "<sources>".toList] ++
          sourceLines includeProjectId 1 chunks ++
            ["</sources>".toList, [], []]) := by
    simp [frontLines, stateLines]
  rw [isFront, isInfix_intercalate_iff (by decide) (List.cons_ne_nil _ _)]
  rintro ⟨line, member, occurs⟩
  rcases List.mem_cons.mp member with rfl | later
  · exact not_isInfix_of_notMem (by decide) occurs
  · exact free_afterState later occurs

/-- Text inside a region does not end it. -/
theorem buildUserPrompt_contained (beliefState : Option Json)
    (chunks : List (RetrievedChunk Score)) (question : String)
    (includeProjectId : Bool) :
    ∃ front,
      (buildUserPrompt beliefState chunks question includeProjectId).toList =
        front ++ "Question:\n".toList ++ question.toList ∧
      Contained beliefState chunks includeProjectId front := by
  refine ⟨_, buildUserPrompt_eq beliefState chunks question includeProjectId,
    ?_⟩
  constructor
  case sources =>
    exact encloses_sources beliefState chunks includeProjectId
  case passage =>
    intro chunk member
    exact passage_mem_sourceLines member 1
  case projectState =>
    rintro content rfl
    refine ⟨encloses_projectState content chunks includeProjectId, ?_⟩
    intro text member
    exact sealText_dumpsString_isInfix
      (Json.dumpsString_isInfix content member)
  case noProjectState =>
    rintro rfl
    exact not_isInfix_frontLines_none chunks includeProjectId

end Proof

end Retrieval

end ProjectMemory
