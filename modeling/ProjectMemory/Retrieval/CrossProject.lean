import Mathlib.Algebra.GroupWithZero.Nat
import ProjectMemory.Foundation.TopK
import ProjectMemory.Retrieval.Retriever

/-!
# Retrieval over several projects

Each project is searched on its own and cut to the wanted number of chunks;
the answers are merged by score and cut again.  The result is the best of all
points, whatever the number and the sizes of the projects.
-/

namespace ProjectMemory.Retrieval

open Foundation Ingestion ProjectMemory.Core

section Law

variable {Dense Sparse Score : Type}

/-- What a query sees of a project: its points with their scores, and the best
of them. -/
structure Ranking (Score : Type) where
  points : List String
  score : String → Score
  best : List String

/-- A search result is a stored point with its score. -/
def IsHit (collection : Collection Dense Sparse) (score : String → Score)
    (id : String) (hit : ScoredPoint Score) : Prop :=
  ∃ point, collection id = some point ∧
    hit = { payload := point.payload, score := score id }

/-- Qdrant answers a query with the best points of the named collection, by
falling score. -/
structure Answers [LinearOrder Score] (search : Search Dense Sparse Score)
    (collections : Uuid → Option (Collection Dense Sparse)) (dense : Dense)
    (sparse : Sparse) (topK : Nat) (projectId : Uuid)
    (ranking : Ranking Score) : Prop where
  stored : ∀ id, id ∈ ranking.points ↔ ∃ collection point,
    collections projectId = some collection ∧ collection id = some point
  distinct : ranking.points.Nodup
  top : IsTop ranking.score topK ranking.points ranking.best
  hits : ∀ collection, collections projectId = some collection →
    ∃ hits, search.queryPoints collection dense sparse topK = .ok hits ∧
      List.Forall₂ (IsHit collection ranking.score) ranking.best hits

/-- The best points of a project, as points of that project. -/
def Ranking.picks (ranking : Ranking Score) (projectId : Uuid) :
    List (Uuid × String) :=
  ranking.best.map fun id => (projectId, id)

def Ranking.allPicks (ranking : Ranking Score) (projectId : Uuid) :
    List (Uuid × String) :=
  ranking.points.map fun id => (projectId, id)

def pickScore (rankings : Uuid → Ranking Score) (pick : Uuid × String) :
    Score :=
  (rankings pick.1).score pick.2

/-- The points of a collection name a document, as `upsert` writes them. -/
def NamesDocuments (collections : Uuid → Option (Collection Dense Sparse))
    (projectId : Uuid) : Prop :=
  ∀ collection id point, collections projectId = some collection →
    collection id = some point → ∃ documentId, point.IsOf documentId

/-- A chunk shows a point of a project under the identifier of that
project. -/
structure Shows (collections : Uuid → Option (Collection Dense Sparse))
    (rankings : Uuid → Ranking Score) (pick : Uuid × String)
    (chunk : RetrievedChunk Score) : Prop where
  point : ∃ collection point, collections pick.1 = some collection ∧
    collection pick.2 = some point ∧
    point.IsOf chunk.documentId ∧
    chunk.chunkIndex = point.payload.chunkIndex ∧
    chunk.text = point.payload.text ∧
    chunk.filename = point.payload.filename
  score : chunk.score = pickScore rankings pick
  project : chunk.projectId = pick.1

/-- The chunks are the best points of all projects. -/
structure GlobalTopK [LinearOrder Score]
    (collections : Uuid → Option (Collection Dense Sparse))
    (rankings : Uuid → Ranking Score) (projectIds : List Uuid) (topK : Nat)
    (picks : List (Uuid × String))
    (chunks : List (RetrievedChunk Score)) : Prop where
  shows : List.Forall₂ (Shows collections rankings) picks chunks
  requested : ∀ pick ∈ picks, pick.1 ∈ projectIds
  distinct : picks.Nodup
  length : chunks.length =
    min topK (projectIds.map fun id => (rankings id).points.length).sum
  sorted : chunks.Pairwise fun left right => right.score ≤ left.score
  ordered : ∀ projectId ∈ projectIds,
    (picks.filter fun pick => pick.1 = projectId).map Prod.snd <+:
      (rankings projectId).best
  best : ∀ projectId ∈ projectIds, ∀ id ∈ (rankings projectId).points,
    (projectId, id) ∉ picks → ∀ chunk ∈ chunks,
      (rankings projectId).score id ≤ chunk.score

end Law

/-! ## Stored points -/

section Stored

variable {Dense Sparse : Type}
  {collections : Uuid → Option (Collection Dense Sparse)}
  {projectId : Uuid}

/-- What `upsert` adds to a collection names its document. -/
theorem NamesDocuments.upserted
    (named : NamesDocuments collections projectId)
    (libraries : Libraries Dense Sparse) (documentId : Uuid)
    (indexed : Indexed Dense Sparse) (now : Timestamp) :
    NamesDocuments (Function.update collections projectId
      ((collections projectId).map fun collection =>
        upsert collection (pointsOf libraries projectId documentId indexed
          now))) projectId := by
  intro collection id point isCollection isPoint
  rw [Function.update_self] at isCollection
  obtain ⟨before, isBefore, isAfter⟩ := Option.map_eq_some_iff.mp isCollection
  rw [← isAfter] at isPoint
  rcases upsert_cases before (pointsOf libraries projectId documentId indexed
    now) id with unchanged | ⟨value, written, stored⟩
  · rw [unchanged] at isPoint
    exact named before id point isBefore isPoint
  · rw [stored] at isPoint
    cases isPoint
    obtain ⟨_, _, isWritten⟩ := List.mem_map.mp written
    obtain ⟨_, isValue⟩ := Prod.mk.inj isWritten
    rw [← isValue]
    exact ⟨documentId, rfl⟩

end Stored

/-! ## One project -/

section Single

variable {Dense Sparse Score : Type}

theorem mapM_ok_of_forall₂ {Key Source Target Fault : Type}
    {convert : Source → Except Fault Target} {before : Key → Source → Prop}
    {after : Key → Target → Prop}
    (converts : ∀ key source, before key source →
      ∃ target, convert source = .ok target ∧ after key target)
    {keys : List Key} {sources : List Source}
    (related : List.Forall₂ before keys sources) :
    ∃ targets, sources.mapM convert = .ok targets ∧
      List.Forall₂ after keys targets := by
  induction related with
  | nil => exact ⟨[], rfl, List.Forall₂.nil⟩
  | @cons key source keys sources here _ inductionHypothesis =>
      obtain ⟨target, isTarget, isRelated⟩ := converts key source here
      obtain ⟨targets, areTargets, areRelated⟩ := inductionHypothesis
      refine ⟨target :: targets, ?_, List.Forall₂.cons isRelated areRelated⟩
      rw [List.mapM_cons, isTarget, areTargets]
      rfl

theorem toChunk_of_isHit {collections : Uuid → Option (Collection Dense Sparse)}
    {rankings : Uuid → Ranking Score} {projectId : Uuid} {id : String}
    {collection : Collection Dense Sparse} {hit : ScoredPoint Score}
    (named : NamesDocuments collections projectId)
    (isCollection : collections projectId = some collection)
    (isHit : IsHit collection (rankings projectId).score id hit) :
    ∃ chunk, toChunk hit projectId = .ok chunk ∧
      Shows collections rankings (projectId, id) chunk := by
  obtain ⟨point, isPoint, rfl⟩ := isHit
  obtain ⟨documentId, isOf⟩ := named collection id point isCollection isPoint
  refine ⟨{
    documentId := documentId
    chunkIndex := point.payload.chunkIndex
    text := point.payload.text
    filename := point.payload.filename
    score := (rankings projectId).score id
    projectId := projectId }, ?_, ?_, rfl, rfl⟩
  · simp only [toChunk]
    rw [isOf, Uuid.parse_str]
  · exact ⟨collection, point, isCollection, isPoint, isOf, rfl, rfl, rfl⟩

/-- A project gives its best points, in order. -/
theorem retrieve_of_answers [LinearOrder Score]
    {search : Search Dense Sparse Score}
    {collections : Uuid → Option (Collection Dense Sparse)}
    {rankings : Uuid → Ranking Score} {projectId : Uuid} {queryText : String}
    {accessibleIds : List Uuid} {topK : Nat} {dense : Dense} {sparse : Sparse}
    (isAccessible : projectId ∈ accessibleIds)
    (isDense : search.embedQuery queryText = .ok dense)
    (isSparse : search.sparseEmbedQuery queryText = .ok sparse)
    (named : NamesDocuments collections projectId)
    (answers : Answers search collections dense sparse topK projectId
      (rankings projectId)) :
    ∃ chunks, retrieve search collections projectId queryText accessibleIds
        topK = .ok chunks ∧
      List.Forall₂ (Shows collections rankings)
        ((rankings projectId).picks projectId) chunks := by
  unfold retrieve
  rw [if_neg (not_not.mpr isAccessible), isDense, isSparse]
  simp only [orInternal, Except.mapError, bind, Except.bind, hybridSearch]
  cases isCollection : collections projectId with
  | none =>
      have noPoints : (rankings projectId).points = [] := by
        refine List.eq_nil_iff_forall_not_mem.mpr fun id member => ?_
        obtain ⟨collection, _, isSome, _⟩ := (answers.stored id).mp member
        rw [isCollection] at isSome
        cases isSome
      have noBest : (rankings projectId).best = [] := by
        have within := answers.top.subset
        rw [noPoints] at within
        exact List.eq_nil_of_subset_nil within
      refine ⟨[], rfl, ?_⟩
      rw [Ranking.picks, noBest]
      exact List.Forall₂.nil
  | some collection =>
      obtain ⟨hits, isAnswer, areHits⟩ := answers.hits collection isCollection
      simp only [isAnswer]
      have converts : ∀ id hit,
          IsHit collection (rankings projectId).score id hit →
          ∃ chunk, toChunk hit projectId = .ok chunk ∧
            Shows collections rankings (projectId, id) chunk :=
        fun _ _ isHit => toChunk_of_isHit named isCollection isHit
      obtain ⟨chunks, areChunks, shows⟩ :=
        mapM_ok_of_forall₂ converts areHits
      refine ⟨chunks, areChunks, ?_⟩
      rw [Ranking.picks, List.forall₂_map_left_iff]
      exact shows

end Single

/-! ## The picks -/

section Picks

variable {Score : Type} {rankings : Uuid → Ranking Score}
  {projectIds : List Uuid}

/-- The points of all projects are different. -/
theorem nodup_allPicks (distinct : projectIds.Nodup)
    (each : ∀ projectId ∈ projectIds, (rankings projectId).points.Nodup) :
    (projectIds.flatMap fun projectId =>
      (rankings projectId).allPicks projectId).Nodup := by
  rw [List.nodup_flatMap]
  constructor
  · intro projectId member
    exact (each projectId member).map fun _ _ same => (Prod.mk.inj same).2
  · refine distinct.imp fun different => ?_
    intro pick isLeft isRight
    obtain ⟨_, _, rfl⟩ := List.mem_map.mp isLeft
    obtain ⟨_, _, same⟩ := List.mem_map.mp isRight
    exact different (Prod.mk.inj same).1.symm

theorem Shows.map_score {Dense Sparse : Type}
    {collections : Uuid → Option (Collection Dense Sparse)}
    {picks : List (Uuid × String)} {chunks : List (RetrievedChunk Score)}
    (shows : List.Forall₂ (Shows collections rankings) picks chunks) :
    chunks.map RetrievedChunk.score = picks.map (pickScore rankings) := by
  induction shows with
  | nil => rfl
  | cons here _ inductionHypothesis =>
      rw [List.map_cons, List.map_cons, here.score, inductionHypothesis]

variable [LinearOrder Score]

/-- The picks that the merge keeps. -/
def mergedPicks (rankings : Uuid → Ranking Score) (projectIds : List Uuid)
    (topK : Nat) : List (Uuid × String) :=
  ((projectIds.flatMap fun projectId =>
    (rankings projectId).picks projectId).mergeSort
      (falling (pickScore rankings))).take topK

theorem isTop_picks {topK : Nat} {projectId : Uuid}
    (top : IsTop (rankings projectId).score topK (rankings projectId).points
      (rankings projectId).best) :
    IsTop (pickScore rankings) topK
      ((rankings projectId).allPicks projectId)
      ((rankings projectId).picks projectId) := by
  have sameScore : ∀ id, pickScore rankings (projectId, id) =
      (rankings projectId).score id := fun _ => rfl
  exact top.map sameScore

/-- What is shown of the picks of the merge is the best of all points. -/
theorem globalTopK_of_shows {Dense Sparse : Type}
    {collections : Uuid → Option (Collection Dense Sparse)} {topK : Nat}
    {chunks : List (RetrievedChunk Score)} (distinct : projectIds.Nodup)
    (each : ∀ projectId ∈ projectIds, (rankings projectId).points.Nodup)
    (tops : ∀ projectId ∈ projectIds,
      IsTop (rankings projectId).score topK (rankings projectId).points
        (rankings projectId).best)
    (shows : List.Forall₂ (Shows collections rankings)
      (mergedPicks rankings projectIds topK) chunks) :
    GlobalTopK collections rankings projectIds topK
      (mergedPicks rankings projectIds topK) chunks := by
  have merged : IsTop (pickScore rankings) topK
      (projectIds.flatMap fun id => (rankings id).allPicks id)
      (mergedPicks rankings projectIds topK) :=
    isTop_merge fun projectId member => isTop_picks (tops projectId member)
  have scores := Shows.map_score shows
  constructor
  case shows => exact shows
  case requested =>
    intro pick isPick
    have isGiven := List.mem_mergeSort.mp (List.mem_of_mem_take isPick)
    obtain ⟨projectId, isRequested, isBest⟩ := List.mem_flatMap.mp isGiven
    obtain ⟨id, _, rfl⟩ := List.mem_map.mp isBest
    exact isRequested
  case distinct => exact merged.nodup (nodup_allPicks distinct each)
  case length =>
    have counts : (fun projectId =>
        ((rankings projectId).allPicks projectId).length) =
          fun projectId => (rankings projectId).points.length := by
      funext projectId
      exact List.length_map _
    rw [← shows.length_eq, merged.length_eq, List.length_flatMap, counts]
  case sorted =>
    have sorted : ((mergedPicks rankings projectIds topK).map
        (pickScore rankings)).Pairwise fun left right => right ≤ left :=
      List.pairwise_map.mpr merged.sorted
    rw [← scores] at sorted
    exact List.pairwise_map.mp sorted
  case ordered =>
    intro projectId isRequested
    have ofProject : ∀ id, ∀ pick ∈ (rankings id).picks id, pick.1 = id := by
      intro id pick isPick
      obtain ⟨_, _, rfl⟩ := List.mem_map.mp isPick
      rfl
    have ownTop := isTop_picks (tops projectId isRequested)
    have front := (filter_take_isPrefix distinct ofProject isRequested
      ownTop.sorted topK).map Prod.snd
    have own : ((rankings projectId).picks projectId).map Prod.snd =
        (rankings projectId).best := by
      rw [Ranking.picks, List.map_map]
      exact List.map_id _
    rw [own] at front
    exact front
  case best =>
    intro projectId isRequested id isPoint notPicked chunk isChunk
    have isCandidate : (projectId, id) ∈
        projectIds.flatMap fun id => (rankings id).allPicks id :=
      List.mem_flatMap.mpr
        ⟨projectId, isRequested, List.mem_map_of_mem isPoint⟩
    have isScore : chunk.score ∈ chunks.map RetrievedChunk.score :=
      List.mem_map_of_mem isChunk
    rw [scores] at isScore
    obtain ⟨kept, isKept, same⟩ := List.mem_map.mp isScore
    rw [← same]
    exact merged.le_of_not_mem isCandidate notPicked isKept

end Picks

/-! ## All projects -/

section All

variable {Dense Sparse Score : Type}

theorem forall₂_flatMap {Source Item Other : Type}
    {related : Item → Other → Prop} {given : Source → List Item}
    {sources : List Source} {results : List (List Other)}
    (each : List.Forall₂ (fun source result =>
      List.Forall₂ related (given source) result) sources results) :
    List.Forall₂ related (sources.flatMap given) results.flatten := by
  induction each with
  | nil => exact List.Forall₂.nil
  | cons here _ inductionHypothesis =>
      rw [List.flatMap_cons, List.flatten_cons]
      exact List.rel_append here inductionHypothesis

variable [LinearOrder Score]

/-- The order of the merged chunks is that of their picks. -/
theorem sortByScore_eq (chunks : List (RetrievedChunk Score)) :
    sortByScore chunks =
      chunks.mergeSort (falling RetrievedChunk.score) := rfl

theorem retrieveMulti_of_accessible {search : Search Dense Sparse Score}
    {collections : Uuid → Option (Collection Dense Sparse)}
    {projectIds accessibleIds : List Uuid} {queryText : String} {topK : Nat}
    (accessible : ∀ projectId ∈ projectIds, projectId ∈ accessibleIds)
    {perProject : List (List (RetrievedChunk Score))}
    (retrieved : (projectIds.mapM fun projectId =>
      retrieve search collections projectId queryText accessibleIds topK) =
        .ok perProject) :
    retrieveMulti search collections projectIds queryText accessibleIds topK =
      .ok ((sortByScore perProject.flatten).take topK) := by
  have noneDenied :
      projectIds.find? (fun id => decide (id ∉ accessibleIds)) = none := by
    refine List.find?_eq_none.mpr fun projectId member => ?_
    rw [decide_eq_true_eq, not_not]
    exact accessible projectId member
  rw [retrieveMulti, noneDenied]
  simp only [retrieved, bind, Except.bind, pure, Except.pure]

/-- A project outside the access scope is refused before anything is embedded
or searched, whatever the embedders and the store would answer. -/
theorem retrieveMulti_of_denied {projectIds accessibleIds : List Uuid}
    {denied : Uuid} (isRequested : denied ∈ projectIds)
    (notAccessible : denied ∉ accessibleIds) (queryText : String)
    (topK : Nat) :
    ∃ projectId ∈ projectIds, projectId ∉ accessibleIds ∧
      ∀ (search : Search Dense Sparse Score)
        (collections : Uuid → Option (Collection Dense Sparse)),
        retrieveMulti search collections projectIds queryText accessibleIds
          topK = .error (accessDenied
            ("Project " ++ projectId.str ++ " is not accessible")) := by
  have someDenied : (projectIds.find? fun id =>
      decide (id ∉ accessibleIds)).isSome = true := by
    rw [List.find?_isSome]
    exact ⟨denied, isRequested, decide_eq_true notAccessible⟩
  obtain ⟨projectId, isFirst⟩ := Option.isSome_iff_exists.mp someDenied
  have firstDenied : decide (projectId ∉ accessibleIds) = true :=
    @List.find?_some _ (fun id => decide (id ∉ accessibleIds)) _ _ isFirst
  refine ⟨projectId, List.mem_of_find?_eq_some isFirst,
    of_decide_eq_true firstDenied, fun search collections => ?_⟩
  rw [retrieveMulti, isFirst]

/-- Two cut-offs lose nothing: the merged chunks are the best points of all
projects. -/
theorem retrieveMulti_of_answers {search : Search Dense Sparse Score}
    {collections : Uuid → Option (Collection Dense Sparse)}
    {rankings : Uuid → Ranking Score} {projectIds accessibleIds : List Uuid}
    {queryText : String} {topK : Nat} {dense : Dense} {sparse : Sparse}
    (distinct : projectIds.Nodup)
    (accessible : ∀ projectId ∈ projectIds, projectId ∈ accessibleIds)
    (isDense : search.embedQuery queryText = .ok dense)
    (isSparse : search.sparseEmbedQuery queryText = .ok sparse)
    (named : ∀ projectId ∈ projectIds, NamesDocuments collections projectId)
    (answers : ∀ projectId ∈ projectIds,
      Answers search collections dense sparse topK projectId
        (rankings projectId)) :
    ∃ picks chunks,
      retrieveMulti search collections projectIds queryText accessibleIds
        topK = .ok chunks ∧
      GlobalTopK collections rankings projectIds topK picks chunks := by
  have eachRetrieved : ∀ projectId other,
      (projectId = other ∧ other ∈ projectIds) →
      ∃ chunks, retrieve search collections other queryText accessibleIds
          topK = .ok chunks ∧
        List.Forall₂ (Shows collections rankings)
          ((rankings projectId).picks projectId) chunks := by
    rintro projectId other ⟨rfl, isRequested⟩
    exact retrieve_of_answers (accessible projectId isRequested) isDense
      isSparse (named projectId isRequested) (answers projectId isRequested)
  have requestedSame : List.Forall₂
      (fun projectId other => projectId = other ∧ other ∈ projectIds)
      projectIds projectIds :=
    List.forall₂_same.mpr fun _ member => ⟨rfl, member⟩
  obtain ⟨perProject, retrieved, eachShows⟩ :=
    mapM_ok_of_forall₂ eachRetrieved requestedSame
  have shows : List.Forall₂ (Shows collections rankings)
      (mergedPicks rankings projectIds topK)
      ((sortByScore perProject.flatten).take topK) := by
    refine List.forall₂_take topK ?_
    rw [sortByScore_eq]
    exact forall₂_mergeSort (fun _ _ isShown => isShown.score.symm)
      (forall₂_flatMap eachShows)
  exact ⟨_, _, retrieveMulti_of_accessible accessible retrieved,
    globalTopK_of_shows distinct
      (fun projectId member => (answers projectId member).distinct)
      (fun projectId member => (answers projectId member).top) shows⟩

/-- Retrieval over several projects refuses them together, or returns the best
points of all of them. -/
theorem retrieveMulti_best {projectIds : List Uuid}
    (distinct : projectIds.Nodup) (accessibleIds : List Uuid)
    (queryText : String) (topK : Nat) :
    ((∃ denied ∈ projectIds, denied ∉ accessibleIds) →
      ∃ projectId ∈ projectIds, projectId ∉ accessibleIds ∧
        ∀ (search : Search Dense Sparse Score)
          (collections : Uuid → Option (Collection Dense Sparse)),
          retrieveMulti search collections projectIds queryText accessibleIds
            topK = .error (accessDenied
              ("Project " ++ projectId.str ++ " is not accessible"))) ∧
    ((∀ projectId ∈ projectIds, projectId ∈ accessibleIds) →
      ∀ (search : Search Dense Sparse Score)
        (collections : Uuid → Option (Collection Dense Sparse))
        (rankings : Uuid → Ranking Score) (dense : Dense) (sparse : Sparse),
        search.embedQuery queryText = .ok dense →
        search.sparseEmbedQuery queryText = .ok sparse →
        (∀ projectId ∈ projectIds, NamesDocuments collections projectId) →
        (∀ projectId ∈ projectIds,
          Answers search collections dense sparse topK projectId
            (rankings projectId)) →
        ∃ picks chunks,
          retrieveMulti search collections projectIds queryText accessibleIds
            topK = .ok chunks ∧
          GlobalTopK collections rankings projectIds topK picks chunks) := by
  constructor
  · rintro ⟨denied, isRequested, notAccessible⟩
    exact retrieveMulti_of_denied isRequested notAccessible queryText topK
  · intro accessible search collections rankings dense sparse isDense isSparse
      named answers
    exact retrieveMulti_of_answers distinct accessible isDense isSparse named
      answers

end All

section Example

def scoredPoint (index : Nat) : Point Unit Unit where
  dense := ()
  bm25 := none
  payload := {
    documentId := Uuid.str 7
    projectId := Uuid.str 1
    chunkIndex := index
    text := "Alice wrote the specification."
    filename := "notes.md"
    createdAt := 0 }

/-- Two points of the first project and one of the second. -/
def threePoints (projectId : Uuid) : Option (Collection Unit Unit) :=
  if projectId = 1 then some fun id =>
    if id = "a" then some (scoredPoint 3)
    else if id = "b" then some (scoredPoint 5)
    else none
  else if projectId = 2 then some fun id =>
    if id = "c" then some (scoredPoint 4) else none
  else none

/-- A search that scores a point by its number. -/
def numberSearch : Search Unit Unit Nat where
  embedQuery := fun _ => .ok ()
  sparseEmbedQuery := fun _ => .ok ()
  queryPoints := fun collection _ _ topK =>
    .ok ((["b", "c", "a"].filterMap fun id =>
      (collection id).map fun point =>
        { payload := point.payload
          score := point.payload.chunkIndex }).take topK)

def numberRanking (projectId : Uuid) : Ranking Nat where
  points := if projectId = 1 then ["a", "b"] else ["c"]
  score := fun id => if id = "a" then 3 else if id = "b" then 5 else 4
  best := if projectId = 1 then ["b", "a"] else ["c"]

theorem namesDocuments_threePoints (projectId : Uuid) :
    NamesDocuments threePoints projectId := by
  intro collection id point isCollection isPoint
  unfold threePoints at isCollection
  split at isCollection
  · cases isCollection
    simp only at isPoint
    split at isPoint
    · cases isPoint
      exact ⟨7, rfl⟩
    · split at isPoint
      · cases isPoint
        exact ⟨7, rfl⟩
      · cases isPoint
  · split at isCollection
    · cases isCollection
      simp only at isPoint
      split at isPoint
      · cases isPoint
        exact ⟨7, rfl⟩
      · cases isPoint
    · cases isCollection

theorem answers_first :
    Answers numberSearch threePoints () () 2 1 (numberRanking 1) where
  stored := by
    intro id
    have project : threePoints 1 = some fun id =>
        if id = "a" then some (scoredPoint 3)
        else if id = "b" then some (scoredPoint 5)
        else none := rfl
    have points : (numberRanking 1).points = ["a", "b"] := rfl
    rw [project, points]
    by_cases isA : id = "a"
    · simp [isA]
    · by_cases isB : id = "b"
      · simp [isB]
      · simp [isA, isB]
  distinct := by decide
  top := ⟨[], by decide, by decide, rfl, fun _ _ _ member => by cases member⟩
  hits := by
    intro collection isCollection
    cases isCollection
    exact ⟨_, rfl, List.Forall₂.cons ⟨_, rfl, rfl⟩
      (List.Forall₂.cons ⟨_, rfl, rfl⟩ List.Forall₂.nil)⟩

theorem answers_second :
    Answers numberSearch threePoints () () 2 2 (numberRanking 2) where
  stored := by
    intro id
    have project : threePoints 2 = some fun id =>
        if id = "c" then some (scoredPoint 4) else none := rfl
    have points : (numberRanking 2).points = ["c"] := rfl
    rw [project, points]
    by_cases isC : id = "c"
    · simp [isC]
    · simp [isC]
  distinct := by decide
  top := ⟨[], by decide, by decide, rfl, fun _ _ _ member => by cases member⟩
  hits := by
    intro collection isCollection
    cases isCollection
    exact ⟨_, rfl, List.Forall₂.cons ⟨_, rfl, rfl⟩ List.Forall₂.nil⟩

theorem retrieveMulti_best_threePoints :
    ∃ picks chunks,
      retrieveMulti numberSearch threePoints [1, 2] "Who?" [1, 2, 3] 2 =
        .ok chunks ∧
      GlobalTopK threePoints numberRanking [1, 2] 2 picks chunks := by
  refine (retrieveMulti_best (by decide) [1, 2, 3] "Who?" 2).2
    (fun _ isRequested => List.mem_append_left [3] isRequested)
    numberSearch threePoints numberRanking () () rfl rfl
    (fun projectId _ => namesDocuments_threePoints projectId) ?_
  intro projectId isRequested
  rcases List.mem_cons.mp isRequested with rfl | isSecond
  · exact answers_first
  · rw [List.mem_singleton.mp isSecond]
    exact answers_second

end Example

end ProjectMemory.Retrieval
