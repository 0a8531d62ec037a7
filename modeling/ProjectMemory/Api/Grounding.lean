import ProjectMemory.Api.Isolation
import ProjectMemory.Foundation.Results
import ProjectMemory.Workers.Attribution

/-!
# The sources of an answer

What a query shows as its sources are chunks of documents of projects of the
caller, in the words of the files, and none of them twice.  The collections
are those that the workers leave behind in any order of their statements.
-/

namespace ProjectMemory.Api

open Foundation Ingestion ProjectMemory.Core Retrieval Workers

section Law

variable {Content Dense Sparse Score : Type}

/-- Qdrant answers with at most `limit` different points of the collection. -/
def AnswersFrom (search : Search Dense Sparse Score) : Prop :=
  ∀ collection dense sparse limit hits,
    search.queryPoints collection dense sparse limit = .ok hits →
    hits.length ≤ limit ∧ ∃ ids : List String, ids.Nodup ∧
      List.Forall₂ (fun id hit => ∃ point, collection id = some point ∧
        hit.payload = point.payload) ids hits

/-- The chunk is one that the file of a document of the project is cut
into. -/
def Quotes (libraries : Libraries Dense Sparse) (projectId : Uuid)
    (site : Site Content Dense Sparse) (chunk : RetrievedChunk Score) :
    Prop :=
  ∃ row ∈ site.rows, row.id = chunk.documentId ∧
    row.projectId = projectId ∧
    chunk.filename = row.document.filename ∧
    ∃ config pieces, site.store.projects projectId = some config ∧
      documentChunks libraries row.document config = some (.ok pieces) ∧
      ∃ piece ∈ pieces, piece.index = chunk.chunkIndex ∧
        piece.text = chunk.text

/-- What identifies a chunk. -/
def chunkKey (chunk : RetrievedChunk Score) : Uuid × Uuid × Nat :=
  (chunk.projectId, chunk.documentId, chunk.chunkIndex)

/-- The chunks of one project that a search may give. -/
structure QuotesOnce (libraries : Libraries Dense Sparse) (projectId : Uuid)
    (site : Site Content Dense Sparse)
    (chunks : List (RetrievedChunk Score)) : Prop where
  project : ∀ chunk ∈ chunks, chunk.projectId = projectId
  quotes : ∀ chunk ∈ chunks, Quotes libraries projectId site chunk
  distinct : (chunks.map chunkKey).Nodup

def Request.body : Request → Option QueryRequest
  | .queryProject _ body | .queryCrossProject body => some body
  | _ => none

/-- A site to which documents were uploaded, ingested and indexed again, in
any order, from a project without points. -/
def Worked (libraries : Libraries Dense Sparse) (schema : Schema Content)
    (projectId : Uuid) (site : Site Content Dense Sparse) : Prop :=
  ∃ start, Begins projectId start ∧
    (∀ row ∈ start.rows, row.projectId = projectId) ∧
    start.store.points projectId = (fun _ => none) ∧
    Reachable (projectSites libraries schema projectId start) site

end Law

section Proof

variable {Content Dense Sparse Score : Type}
  {libraries : Libraries Dense Sparse} {schema : Schema Content}
  {projectId : Uuid} {site : Site Content Dense Sparse}
  {sites : Uuid → Site Content Dense Sparse}
  {search : Search Dense Sparse Score}
  {collections : Uuid → Option (Collection Dense Sparse)}
  {accessibleIds : List Uuid} {question : String} {topK : Nat}

/-- A chunk that a search gives is one that a point stands for. -/
theorem chunk_of_point (worked : Worked libraries schema projectId site)
    {id : String} {point : Point Dense Sparse} {hit : ScoredPoint Score}
    {chunk : RetrievedChunk Score}
    (found : site.store.points projectId id = some point)
    (payload : hit.payload = point.payload)
    (shown : toChunk hit projectId = .ok chunk) :
    chunk.projectId = projectId ∧
      id = pointId libraries chunk.documentId chunk.chunkIndex ∧
      Quotes libraries projectId site chunk := by
  obtain ⟨start, begins, owned, empty, reachable⟩ := worked
  have sourced := sourced_of_reachable begins owned
    (attributed_of_empty empty) reachable
  obtain ⟨row, isRow, piece, isPiece, isId, represents⟩ :=
    sourced.attributed id point found
  have names : hit.payload.documentId = row.id.str := by
    rw [payload]
    exact represents.document
  rw [toChunk, names, Uuid.parse_str] at shown
  cases shown
  rw [payload, represents.index, represents.text, represents.filename]
  refine ⟨rfl, isId, row, isRow, rfl, sourced.owned row isRow, ?_⟩
  have isDocument : site.store.documents row.id = some row.document :=
    sourced.sound.registered.documents row isRow
  -- the pieces are those of the document and the project as they are stored
  simp only [storedChunks, argumentsOf, isDocument] at isPiece
  cases isConfig : site.store.projects projectId with
  | none =>
      rw [isConfig] at isPiece
      cases isPiece
  | some config =>
      simp only [isConfig] at isPiece
      cases cut : documentChunks libraries row.document config with
      | none =>
          rw [cut] at isPiece
          cases isPiece
      | some outcome =>
          cases outcome with
          | error message =>
              rw [cut] at isPiece
              cases isPiece
          | ok pieces =>
              simp only [cut] at isPiece
              have isNamed := filename_documentChunks cut piece isPiece
              refine ⟨?_, config, pieces, rfl, cut, piece, isPiece, rfl,
                rfl⟩
              rw [isNamed]
              rfl

/-- What the points show quotes the documents, each chunk once. -/
theorem quotesOnce_of_hits (worked : Worked libraries schema projectId site)
    {ids : List String} {hits : List (ScoredPoint Score)}
    (areHits : List.Forall₂ (fun id hit => ∃ point,
      site.store.points projectId id = some point ∧
        hit.payload = point.payload) ids hits) :
    ids.Nodup → ∀ {chunks : List (RetrievedChunk Score)},
      List.Forall₂ (fun hit chunk => toChunk hit projectId = .ok chunk)
        hits chunks →
      QuotesOnce libraries projectId site chunks ∧
        ∀ chunk ∈ chunks,
          pointId libraries chunk.documentId chunk.chunkIndex ∈ ids := by
  induction areHits with
  | nil =>
      intro _ chunks shown
      cases shown
      refine ⟨⟨?_, ?_, List.nodup_nil⟩, ?_⟩ <;> intro chunk isChunk <;>
        cases isChunk
  | @cons id hit ids hits here _ inductionHypothesis =>
      intro distinct chunks shown
      cases shown with
      | @cons _ chunk _ chunks shownHere shownLater =>
          obtain ⟨fresh, laterDistinct⟩ := List.nodup_cons.mp distinct
          obtain ⟨point, found, payload⟩ := here
          obtain ⟨ofProject, isId, quotes⟩ :=
            chunk_of_point worked found payload shownHere
          obtain ⟨once, within⟩ :=
            inductionHypothesis laterDistinct shownLater
          refine ⟨⟨?_, ?_, ?_⟩, ?_⟩
          · exact List.forall_mem_cons.mpr ⟨ofProject, once.project⟩
          · exact List.forall_mem_cons.mpr ⟨quotes, once.quotes⟩
          · refine List.nodup_cons.mpr ⟨?_, once.distinct⟩
            intro repeated
            obtain ⟨other, isOther, sameKey⟩ := List.mem_map.mp repeated
            simp only [chunkKey, Prod.mk.injEq] at sameKey
            have isThere := within other isOther
            rw [sameKey.2.1, sameKey.2.2, ← isId] at isThere
            exact fresh isThere
          · refine List.forall_mem_cons.mpr ⟨?_, ?_⟩
            · rw [← isId]
              exact List.mem_cons_self
            · intro other isOther
              exact List.mem_cons_of_mem _ (within other isOther)

theorem length_of_forall₂ {Source Target : Type}
    {related : Source → Target → Prop} {sources : List Source}
    {targets : List Target} {limit : Nat}
    (each : List.Forall₂ related sources targets)
    (bounded : sources.length ≤ limit) : targets.length ≤ limit := by
  rw [← each.length_eq]
  exact bounded

theorem retrieve_quotes (answersFrom : AnswersFrom search)
    (worked : Worked libraries schema projectId site)
    (same : collections projectId = site.store.collections projectId)
    {chunks : List (RetrievedChunk Score)}
    (retrieved : retrieve search collections projectId question
      accessibleIds topK = .ok chunks) :
    projectId ∈ accessibleIds ∧ chunks.length ≤ topK ∧
      QuotesOnce libraries projectId site chunks := by
  unfold retrieve at retrieved
  split at retrieved
  · cases retrieved
  · rename_i notDenied
    refine ⟨not_not.mp notDenied, ?_⟩
    obtain ⟨dense, _, embedded⟩ := bind_eq_ok.mp retrieved
    obtain ⟨sparse, _, searched⟩ := bind_eq_ok.mp embedded
    obtain ⟨hits, isHits, shown⟩ := bind_eq_ok.mp searched
    have areShown := forall₂_of_mapM shown
    unfold hybridSearch at isHits
    rw [same] at isHits
    cases isCollection : site.store.collections projectId with
    | none =>
        rw [isCollection] at isHits
        cases isHits
        cases areShown
        refine ⟨Nat.zero_le topK, ⟨?_, ?_, List.nodup_nil⟩⟩ <;>
          intro chunk isChunk <;> cases isChunk
    | some collection =>
        cases ranked : search.queryPoints collection dense sparse topK with
        | error message =>
            simp only [isCollection, ranked] at isHits
            cases isHits
        | ok found =>
            simp only [isCollection, ranked] at isHits
            cases isHits
            obtain ⟨bounded, ids, distinct, areHits⟩ :=
              answersFrom collection dense sparse topK hits ranked
            have points : site.store.points projectId = collection := by
              rw [Store.points, isCollection]
              rfl
            rw [← points] at areHits
            exact ⟨length_of_forall₂ areShown bounded,
              (quotesOnce_of_hits worked areHits distinct areShown).1⟩

/-- The chunks of several projects, each project asked once. -/
theorem quotes_flatten
    {projectIds : List Uuid} {perProject : List (List (RetrievedChunk Score))}
    (each : List.Forall₂ (fun projectId chunks =>
      projectId ∈ accessibleIds ∧
        QuotesOnce libraries projectId (sites projectId) chunks)
      projectIds perProject) :
    projectIds.Nodup →
      (∀ chunk ∈ perProject.flatten, chunk.projectId ∈ projectIds ∧
        chunk.projectId ∈ accessibleIds ∧
        Quotes libraries chunk.projectId (sites chunk.projectId) chunk) ∧
      (perProject.flatten.map chunkKey).Nodup := by
  induction each with
  | nil =>
      intro _
      refine ⟨?_, List.nodup_nil⟩
      intro chunk isChunk
      cases isChunk
  | @cons projectId chunks projectIds rest here _ inductionHypothesis =>
      intro distinct
      obtain ⟨fresh, laterDistinct⟩ := List.nodup_cons.mp distinct
      obtain ⟨isAccessible, once⟩ := here
      obtain ⟨quoted, nodup⟩ := inductionHypothesis laterDistinct
      rw [List.flatten_cons, List.map_append]
      refine ⟨?_, List.nodup_append'.mpr ⟨once.distinct, nodup, ?_⟩⟩
      · intro chunk isChunk
        rcases List.mem_append.mp isChunk with first | later
        · have ofProject := once.project chunk first
          rw [ofProject]
          exact ⟨List.mem_cons_self, isAccessible, once.quotes chunk first⟩
        · obtain ⟨isLater, others⟩ := quoted chunk later
          exact ⟨List.mem_cons_of_mem _ isLater, others⟩
      · intro key isFirst isLater
        obtain ⟨chunk, inFirst, rfl⟩ := List.mem_map.mp isFirst
        obtain ⟨other, inLater, sameKey⟩ := List.mem_map.mp isLater
        have sameProject : other.projectId = chunk.projectId :=
          congrArg Prod.fst sameKey
        have isOther := (quoted other inLater).1
        rw [sameProject, once.project chunk inFirst] at isOther
        exact fresh isOther

theorem retrieveMulti_quotes [LinearOrder Score]
    (answersFrom : AnswersFrom search)
    (worked : ∀ projectId, Worked libraries schema projectId
      (sites projectId))
    (same : ∀ projectId,
      collections projectId = (sites projectId).store.collections projectId)
    {projectIds : List Uuid} (distinct : projectIds.Nodup)
    {chunks : List (RetrievedChunk Score)}
    (retrieved : retrieveMulti search collections projectIds question
      accessibleIds topK = .ok chunks) :
    chunks.length ≤ topK ∧
      (∀ chunk ∈ chunks, chunk.projectId ∈ accessibleIds ∧
        Quotes libraries chunk.projectId (sites chunk.projectId) chunk) ∧
      (chunks.map chunkKey).Nodup := by
  unfold retrieveMulti at retrieved
  split at retrieved
  · cases retrieved
  · obtain ⟨perProject, isPerProject, isMerged⟩ := bind_eq_ok.mp retrieved
    cases isMerged
    have each := (forall₂_of_mapM isPerProject).imp
      fun projectId found isFound =>
        have quoted := retrieve_quotes answersFrom (worked projectId)
          (same projectId) isFound
        And.intro quoted.1 quoted.2.2
    obtain ⟨quoted, nodup⟩ := quotes_flatten each distinct
    have sorted : (sortByScore perProject.flatten).Perm
        perProject.flatten := List.mergeSort_perm _ _
    refine ⟨List.length_take_le _ _, ?_, ?_⟩
    · intro chunk isChunk
      exact (quoted chunk
        (sorted.mem_iff.mp (List.mem_of_mem_take isChunk))).2
    · refine List.Nodup.sublist ((List.take_sublist _ _).map chunkKey) ?_
      exact ((sorted.map chunkKey).nodup_iff).mpr nodup

theorem chunks_toSourceChunks (chunks : List (RetrievedChunk Score)) :
    (toSourceChunks chunks).map SourceChunk.chunk = chunks := by
  apply List.ext_getElem
  · simp [toSourceChunks]
  · intro position _ _
    simp [toSourceChunks]

/-- An answer shows the chunks it was given. -/
theorem chunks_answer {services : Services Content Dense Sparse Score}
    {model : Json} {beliefState : Option (BeliefStateRecord Content)}
    {chunks : List (RetrievedChunk Score)} {includeProjectId : Bool}
    {response : QueryResponse Score}
    (answered : answer services model beliefState chunks question
      includeProjectId = .ok response) :
    response.sources.map SourceChunk.chunk = chunks := by
  unfold answer at answered
  cases generated : services.generate model (buildUserPrompt
      (beliefState.map fun record => services.schema.dump record.state)
      chunks question includeProjectId) with
  | error message =>
      simp only [generated] at answered
      cases answered
  | ok text =>
      simp only [generated] at answered
      cases answered
      exact chunks_toSourceChunks chunks

end Proof

section Answers

variable {Content Dense Sparse Score : Type}
  {libraries : Libraries Dense Sparse}
  {services : Services Content Dense Sparse Score}
  {sites : Uuid → Site Content Dense Sparse}
  {state : State Dense Sparse} {accessibleIds : List Uuid}
  {question : String} {topK : Nat} {response : QueryResponse Score}

/-- The chunks of an answer: at most so many, of accessible projects, each
of them once. -/
def Grounded (libraries : Libraries Dense Sparse)
    (sites : Uuid → Site Content Dense Sparse) (accessibleIds : List Uuid)
    (topK : Nat) (chunks : List (RetrievedChunk Score)) : Prop :=
  chunks.length ≤ topK ∧
    (∀ chunk ∈ chunks, chunk.projectId ∈ accessibleIds ∧
      Quotes libraries chunk.projectId (sites chunk.projectId) chunk) ∧
    (chunks.map chunkKey).Nodup

theorem grounded_nil : @Grounded Content Dense Sparse Score libraries sites
    accessibleIds topK [] := by
  refine ⟨Nat.zero_le topK, ?_, List.nodup_nil⟩
  intro chunk isChunk
  cases isChunk

theorem query_grounded {projectId : Uuid}
    (answersFrom : AnswersFrom services.search)
    (worked : ∀ projectId, Worked libraries services.schema projectId
      (sites projectId))
    (same : ∀ projectId, state.collections projectId =
      (sites projectId).store.collections projectId)
    (answered : query services state question projectId accessibleIds topK =
      .ok response) :
    Grounded libraries sites accessibleIds topK
      (response.sources.map SourceChunk.chunk) := by
  unfold query at answered
  obtain ⟨_, _, asked⟩ := bind_eq_ok.mp answered
  cases isProject : state.accounts.projects.get projectId with
  | none =>
      simp only [isProject] at asked
      cases asked
  | some project =>
      simp only [isProject] at asked
      obtain ⟨chunks, retrieved, shown⟩ := bind_eq_ok.mp asked
      obtain ⟨isAccessible, bounded, once⟩ :=
        retrieve_quotes answersFrom (worked projectId) (same projectId)
          retrieved
      split at shown
      · cases shown
        exact grounded_nil
      · rw [chunks_answer shown]
        refine ⟨bounded, ?_, once.distinct⟩
        intro chunk isChunk
        rw [once.project chunk isChunk]
        exact ⟨isAccessible, once.quotes chunk isChunk⟩

theorem queryCrossProject_grounded [LinearOrder Score]
    (answersFrom : AnswersFrom services.search)
    (worked : ∀ projectId, Worked libraries services.schema projectId
      (sites projectId))
    (same : ∀ projectId, state.collections projectId =
      (sites projectId).store.collections projectId)
    (distinct : accessibleIds.Nodup)
    (answered : queryCrossProject services state question accessibleIds
      topK = .ok response) :
    Grounded libraries sites accessibleIds topK
      (response.sources.map SourceChunk.chunk) := by
  unfold queryCrossProject at answered
  obtain ⟨_, _, asked⟩ := bind_eq_ok.mp answered
  by_cases noneAccessible : accessibleIds = []
  · rw [if_pos noneAccessible] at asked
    cases asked
    exact grounded_nil
  · rw [if_neg noneAccessible] at asked
    obtain ⟨chunks, retrieved, shown⟩ := bind_eq_ok.mp asked
    have grounded : Grounded libraries sites accessibleIds topK chunks :=
      retrieveMulti_quotes answersFrom worked same distinct retrieved
    dsimp only at shown
    by_cases isEmpty : chunks.isEmpty = true
    · rw [if_pos isEmpty] at shown
      cases shown
      exact grounded_nil
    · rw [if_neg isEmpty] at shown
      rw [chunks_answer shown]
      exact grounded

theorem nodup_accessible (user : User) (accounts : Accounts) :
    (getAccessibleProjectIds user accounts).Nodup := by
  obtain ⟨part, isPart⟩ := accessible_eq_map_filter user accounts
  rw [isPart]
  exact accounts.projects.unique.sublist
    (List.filter_sublist.map Project.id)

/-- What a query shows as its sources are at most `top_k` chunks of documents
of projects the caller may access, in the words of the stored files, and no
chunk twice: whatever runs, fails or is executed again among the workers. -/
theorem sources_quote [LinearOrder Score]
    (answersFrom : AnswersFrom services.search)
    (worked : ∀ projectId, Worked libraries services.schema projectId
      (sites projectId))
    (same : ∀ projectId, state.collections projectId =
      (sites projectId).store.collections projectId)
    (authorization : Option String) (request : Request)
    (answered : respond services authorization request state =
      .ok (.query response)) :
    ∃ user body, currentUser services authorization state = .ok user ∧
      request.body = some body ∧
      Grounded libraries sites
        (getAccessibleProjectIds user state.accounts) body.topK
        (response.sources.map SourceChunk.chunk) := by
  cases request with
  | queryProject projectId body =>
      obtain ⟨user, isUser, admitted⟩ := bind_eq_ok.mp answered
      obtain ⟨_, _, inside⟩ := bind_eq_ok.mp admitted
      obtain ⟨accessibleIds, inScope, asked⟩ := bind_eq_ok.mp inside
      obtain ⟨given, isGiven, shown⟩ := bind_eq_ok.mp asked
      cases shown
      obtain ⟨caller, isCaller, isScope⟩ := bind_eq_ok.mp inScope
      cases isScope
      exact ⟨caller, body, isCaller, rfl,
        query_grounded answersFrom worked same isGiven⟩
  | queryCrossProject body =>
      obtain ⟨user, isUser, privileged⟩ := bind_eq_ok.mp answered
      obtain ⟨_, _, admitted⟩ := bind_eq_ok.mp privileged
      obtain ⟨_, _, inside⟩ := bind_eq_ok.mp admitted
      obtain ⟨accessibleIds, inScope, asked⟩ := bind_eq_ok.mp inside
      obtain ⟨given, isGiven, shown⟩ := bind_eq_ok.mp asked
      cases shown
      obtain ⟨caller, isCaller, isScope⟩ := bind_eq_ok.mp inScope
      cases isScope
      exact ⟨caller, body, isCaller, rfl, queryCrossProject_grounded
        answersFrom worked same (nodup_accessible _ _) isGiven⟩
  | listProjects =>
      obtain ⟨_, _, shown⟩ := bind_eq_ok.mp answered
      cases shown
  | getJob jobId =>
      obtain ⟨_, _, shown⟩ := bind_eq_ok.mp answered
      cases shown
  | getProject projectId | listDocuments projectId | getCag projectId
  | listCagVersions projectId =>
      obtain ⟨_, _, asked⟩ := bind_eq_ok.mp answered
      obtain ⟨_, _, shown⟩ := bind_eq_ok.mp asked
      cases shown

end Answers

/-! ## An ingested document that is quoted -/

section Sample

/-- The point of the first chunk of the document, if it is stored. -/
def firstPoint : Search Unit Unit Nat where
  embedQuery := fun _ => .ok ()
  sparseEmbedQuery := fun _ => .ok ()
  queryPoints := fun collection _ _ limit =>
    .ok (((collection (pointId Workers.sampleLibraries 2 0)).toList.map
      fun point => { payload := point.payload, score := 0 }).take limit)

theorem firstPoint_answersFrom : AnswersFrom firstPoint := by
  rintro collection dense sparse limit hits ranked
  cases ranked
  refine ⟨List.length_take_le _ _, ?_⟩
  cases found : collection (pointId Workers.sampleLibraries 2 0) with
  | none => exact ⟨[], List.nodup_nil, by simp⟩
  | some point =>
      cases limit with
      | zero => exact ⟨[], List.nodup_nil, by simp⟩
      | succ limit =>
          refine ⟨[pointId Workers.sampleLibraries 2 0],
            List.nodup_singleton _, ?_⟩
          simp only [Option.toList_some, List.map_cons, List.map_nil,
            List.take_succ_cons, List.take_nil]
          exact List.Forall₂.cons ⟨point, found, rfl⟩ List.Forall₂.nil

def quotingServices : Services String Unit Unit Nat :=
  { sampleServices with
    search := firstPoint
    decodeSubject := fun _ => some (Uuid.str 1) }

/-- The document is ingested, and the project is indexed again twice. -/
def reindexedTwice : List ProjectLabel :=
  (ingestion ++ reindexing 10 1).map ProjectLabel.site ++
    .reindexAgain :: (reindexing 10 1).map ProjectLabel.site

theorem reindexedTwice_enabled :
    (follow (projectStep Workers.sampleLibraries Cag.textSchema 3)
      reindexedTwice emptySite).isSome = true := rfl

def ingestedSite : Site String Unit Unit :=
  followed (projectStep Workers.sampleLibraries Cag.textSchema 3)
    reindexedTwice emptySite reindexedTwice_enabled

/-- The project of the document, and the others without any. -/
def ingestedSites (projectId : Uuid) : Site String Unit Unit :=
  if projectId = 3 then ingestedSite else emptySite

theorem ingestedSites_worked (projectId : Uuid) :
    Worked Workers.sampleLibraries quotingServices.schema projectId
      (ingestedSites projectId) := by
  have begins : Begins projectId emptySite := by
    refine ⟨⟨?_, ?_⟩, rfl, rfl⟩
    · intro row isRow
      cases isRow
    · intro jobId job documentId found
      cases found
  have noRows : ∀ row ∈ emptySite.rows, row.projectId = projectId := by
    intro row isRow
    cases isRow
  have noPoints : emptySite.store.points projectId = fun _ => none := by
    by_cases own : projectId = 3
    · subst own
      rfl
    · have missing : emptySite.store.collections projectId = none :=
        if_neg own
      rw [Store.points, missing]
      rfl
  refine ⟨emptySite, begins, noRows, noPoints, ?_⟩
  by_cases own : projectId = 3
  · subst own
    exact reachable_of_follow (Reachable.initial rfl)
      (Option.some_get reindexedTwice_enabled).symm
  · rw [ingestedSites, if_neg own]
    exact Reachable.initial rfl

def ingestedState : State Unit Unit where
  accounts := {
    users := Table.single { id := 1, role := "admin" }
    members := []
    projects := Table.single {
      id := 3, name := "Apollo", description := none, teamId := 4,
      config := [], createdAt := 0 } }
  documents := Table.empty
  jobs := Table.empty
  tables := { summaries := [], beliefs := [] }
  collections := fun projectId =>
    (ingestedSites projectId).store.collections projectId

def whoQuestion : QueryRequest where
  question := "Who?"
  topK := 5
  question_nonempty := by decide
  topK_bounds := by decide

set_option maxRecDepth 20000 in
/-- A query of the project quotes the document. -/
theorem ingestedState_quoted :
    ∃ response : QueryResponse Nat, response.sources ≠ [] ∧
      ∃ user body, currentUser quotingServices (some "Bearer token")
          ingestedState = .ok user ∧
        (Request.queryProject 3 whoQuestion).body = some body ∧
        Grounded Workers.sampleLibraries ingestedSites
          (getAccessibleProjectIds user ingestedState.accounts) body.topK
          (response.sources.map SourceChunk.chunk) := by
  refine ⟨_, ?_, sources_quote firstPoint_answersFrom ingestedSites_worked
    (fun _ => rfl) (some "Bearer token") (.queryProject 3 whoQuestion)
    rfl⟩
  intro none
  cases none

end Sample

end ProjectMemory.Api
