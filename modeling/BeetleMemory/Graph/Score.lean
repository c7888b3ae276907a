import BeetleMemory.Graph.Types

/-! The score of a recall candidate: a saturating sum of unsigned 32-bit terms, from which the
penalties of a superseded node are taken. Lengths and counts are cut to 32 bits where the source
casts them.
-/

namespace BeetleMemory.Graph

open LongTerm (trim)
open Store (startsWith)

variable (tables : TextTables)

/-! ## Unsigned 32-bit words -/

def u32Max : Nat := 2 ^ 32 - 1

def asU32 (n : Nat) : Nat := n % 2 ^ 32

def satAdd (a b : Nat) : Nat := min (a + b) u32Max

def satMul (a b : Nat) : Nat := min (a * b) u32Max

/-! ## Lexical terms -/

def graphNodeRetrievalText (node : MemoryGraphNode) : String :=
  let parts := node.nodeId :: node.label :: node.evidenceRefs
  let normalized := normalizeRetrievalText tables (" ".intercalate parts)
  let compact := withoutBlanks normalized
  if compact.isEmpty then normalized else normalized ++ " " ++ compact

/-- The terms of the query that the text of the node has. -/
def matchedTerms (query : String) (node : MemoryGraphNode) : List String :=
  (graphTerms tables query).filter (hasPart (graphNodeRetrievalText tables node))

def lexicalGraphScore (query : String) (node : Option MemoryGraphNode) : Nat :=
  (node.map fun node => asU32 (matchedTerms tables query node).length * 25).getD 0

def graphAnchorIsTemporal (term : String) : Bool :=
  let digits := (term.toList.filter isAsciiDigit).length
  (term.utf8ByteSize == 4 && digits == 4 && "1900" ≤ term && term ≤ "2100")
    || (term.utf8ByteSize == 2 && digits == 2
      && term.toNat?.any fun value => value < 256 && 1 ≤ value && value ≤ 31)

def graphAnchorIsNoise (term : String) : Bool :=
  ["what", "when", "where", "which", "that", "this", "with", "from", "into", "was", "were",
    "the", "and", "for", "target", "session", "evidence", "packet"].contains term

/-- A saturating sum over terms, by their length in bytes. -/
def termScore (long short : Nat) (terms : List String) : Nat :=
  terms.foldl (fun score term => satAdd score (if 4 ≤ term.utf8ByteSize then long else short)) 0

def graphEntityAliasScore (query : String) (node : Option MemoryGraphNode) : Nat :=
  (node.map fun node =>
    min (termScore 80 40 ((matchedTerms tables query node).filter fun term =>
      !graphAnchorIsNoise term && !graphAnchorIsTemporal term)) 400).getD 0

def graphTemporalAnchorScore (query : String) (node : Option MemoryGraphNode) : Nat :=
  (node.map fun node =>
    min (termScore 120 45 ((matchedTerms tables query node).filter graphAnchorIsTemporal))
      360).getD 0

def graphSessionAliasScore (query : String) (node : Option MemoryGraphNode) : Nat :=
  (node.map fun node =>
    let sessions := (matchedTerms tables query node).filter fun term =>
      startsWith term "session" || startsWith term "d"
    let score := sessions.foldl (fun score _ => satAdd score 120) 0
    let compactQuery := withoutBlanks (normalizeRetrievalText tables query)
    let score :=
      if !compactQuery.isEmpty && hasPart (graphNodeRetrievalText tables node) compactQuery then
        satAdd score 160
      else score
    min score 360).getD 0

/-! ## Edges around a node -/

def graphNodeRank (nodeId : String) (graph : TemporalMemoryGraph) : Nat :=
  ((graph.connectedEdges nodeId).map (·.validity.observedAt)).max?.getD 0

/-- The latest observation of an edge at the node. Without edges, any backlink of its evidence
counts as one.
-/
def graphObservedRank (nodeId : String) (graph : TemporalMemoryGraph) : Nat :=
  (((graph.connectedEdges nodeId).map (·.validity.observedAt)).max?.or
    ((graph.node nodeId).bind fun node =>
      (node.evidenceRefs.filterMap fun evidenceRef =>
        (graph.backlink evidenceRef).map fun _ => 1).max?)).getD 0

def graphNeighborhoodScore (nodeId : String) (graph : TemporalMemoryGraph) : Nat :=
  satMul (asU32 (graph.connectedEdges nodeId).length) 100

/-- What one edge at a node is worth in time. -/
def edgeReasoningScore (nodeId : String) (edge : MemoryGraphEdge) : Nat :=
  let score := min edge.validity.observedAt 10000 / 10
  let score :=
    if edge.validity.validUntil.isNone && edge.validity.supersededBy.isNone then satAdd score 80
    else score
  if edge.kind == .supersedes && edge.fromNodeId == nodeId then satAdd score 120 else score

def graphTemporalReasoningScore (nodeId : String) (graph : TemporalMemoryGraph) : Nat :=
  ((graph.connectedEdges nodeId).map (edgeReasoningScore nodeId)).max?.getD 0

def graphReferenceObservedAt (graph : TemporalMemoryGraph) : Nat :=
  (graph.edges.map (·.validity.observedAt)).max?.getD 0

/-- One edge makes the node superseded, at the given time of the graph. -/
def edgeSupersedes (nodeId : String) (graphObservedAt : Nat) (edge : MemoryGraphEdge) : Bool :=
  (edge.kind == .supersedes && edge.toNodeId == nodeId)
    || (edge.touches nodeId && edge.validity.supersededBy.any fun supersededBy =>
        !Store.trimIsEmpty supersededBy && supersededBy != nodeId)
    || (edge.touches nodeId && edge.validity.validUntil.any (· < graphObservedAt))

def graphNodeIsSuperseded (nodeId : String) (graph : TemporalMemoryGraph) : Bool :=
  graph.edges.any (edgeSupersedes nodeId (graphReferenceObservedAt graph))

/-- The node supersedes another one. -/
def supersedesOther (nodeId : String) (graph : TemporalMemoryGraph) : Bool :=
  graph.edges.any fun edge => edge.kind == .supersedes && edge.fromNodeId == nodeId

def graphNodeConnectedToAny (nodeId : String) (anchors : List String)
    (graph : TemporalMemoryGraph)
    : Bool :=
  graph.edges.any fun edge =>
    anchors.any fun anchor =>
      (edge.fromNodeId == nodeId && edge.toNodeId == anchor)
        || (edge.toNodeId == nodeId && edge.fromNodeId == anchor)

/-! ## Evidence of a node -/

def sourceAuthorityScore (sourceKind : String) : Nat :=
  if ["conversation_transcript", "turn_ledger", "archive", "accepted_long_term_revision",
      "procedural_memory", "runtime_skill", "explicit_sdk_write"].contains sourceKind then 100
  else if Store.trimIsEmpty sourceKind then 0
  else 50

/-- The best authority among the backlinks of a node. -/
def graphAuthority (nodeId : String) (graph : TemporalMemoryGraph) : Nat :=
  ((graph.node nodeId).map fun node =>
    ((node.evidenceRefs.filterMap graph.backlink).map fun backlink =>
      sourceAuthorityScore backlink.sourceKind).max?.getD 0).getD 0

def evidenceQualityScore (nodeId : String) (graph : TemporalMemoryGraph) : Nat :=
  let refs := ((graph.node nodeId).map (·.evidenceRefs)).getD []
  let fingerprinted := refs.filter fun evidenceRef =>
    graph.backlinks.any fun backlink =>
      backlink.sourceId == evidenceRef && !backlink.fingerprint.isEmpty
  satAdd (satMul (asU32 refs.length) 100) (satMul (asU32 fingerprinted.length) 100)

def graphEvidenceGroupCount (node : MemoryGraphNode) : Nat :=
  asU32 (node.evidenceRefs.foldl
    (fun groups evidenceRef =>
      let group := canonicalRecallEvidenceGroup tables evidenceRef
      if group.isEmpty then groups else pushUnique groups group) []).length

def graphMultiEvidenceCoverageScore (groupCount : Nat) : Nat :=
  if groupCount = 0 then 0 else satAdd 120 (satMul (groupCount - 1) 40)

/-! ## Facets -/

/-- The full score at an anchor, the partial one next to an anchor. -/
def anchorScore (full part : Nat) (nodeId : String) (anchors : List String)
    (graph : TemporalMemoryGraph)
    : Nat :=
  if anchors.contains nodeId then full
  else if graphNodeConnectedToAny nodeId anchors graph then part
  else 0

def graphFacetExactScore (nodeId : String) (graph : TemporalMemoryGraph)
    (facetContext : GraphFacetPropagationContext)
    : Nat :=
  anchorScore 700 350 nodeId facetContext.exactAnchorIds graph

def graphFacetExpandedScore (nodeId : String) (graph : TemporalMemoryGraph)
    (facetContext : GraphFacetPropagationContext)
    : Nat :=
  anchorScore 350 175 nodeId facetContext.expandedAnchorIds graph

/-- The anchors that an edge connects to the node. -/
def connectedAnchors (nodeId : String) (graph : TemporalMemoryGraph)
    (facetContext : GraphFacetPropagationContext)
    : List String :=
  facetContext.anchors.filter fun anchor => graphNodeConnectedToAny nodeId [anchor] graph

def graphFacetEvidenceGroups (nodeId : String) (graph : TemporalMemoryGraph)
    (facetContext : GraphFacetPropagationContext)
    : List String :=
  (nodeId :: connectedAnchors nodeId graph facetContext).foldl
    (fun groups candidate => (facetContext.evidenceGroups candidate).foldl pushUnique groups) []

def graphFacetAuthorityScore (nodeId : String) (graph : TemporalMemoryGraph)
    (facetContext : GraphFacetPropagationContext) (baseSourceAuthorityScore : Nat)
    (hasFacetGroups : Bool)
    : Nat :=
  if !hasFacetGroups && !facetContext.anchors.contains nodeId then 0
  else max (graphAuthority nodeId graph) baseSourceAuthorityScore / 2

def graphFacetDiversityScore (facetGroups : List String)
    (facetContext : GraphFacetPropagationContext)
    : Nat :=
  if facetGroups.isEmpty then 0
  else
    let covered := asU32
      (facetGroups.filter facetContext.coveredEvidenceGroups.contains).length
    if covered = 0 then 120 else satAdd 180 (satMul (covered - 1) 60)

def graphFacetObservedAt (nodeId : String) (graph : TemporalMemoryGraph)
    (facetContext : GraphFacetPropagationContext)
    : Nat :=
  (connectedAnchors nodeId graph facetContext).foldl
    (fun observedAt anchor => max observedAt (facetContext.observedAt anchor))
    (facetContext.observedAt nodeId)

def graphFacetTemporalScore (nodeId : String) (graph : TemporalMemoryGraph)
    (facetContext : GraphFacetPropagationContext)
    : Nat :=
  let observedAt := graphFacetObservedAt nodeId graph facetContext
  if observedAt = 0 then 0 else satAdd 80 (min observedAt 10000 / 100)

/-! ## The whole score -/

structure GraphRecallCandidateScore where
  candidateId : String
  lexicalScore : Nat
  entityAliasScore : Nat
  temporalAnchorScore : Nat
  sessionAliasScore : Nat
  graphNeighborhoodScore : Nat
  temporalValidityScore : Nat
  temporalReasoningScore : Nat
  evidenceQualityScore : Nat
  multiEvidenceCoverageScore : Nat
  sourceAuthorityScore : Nat
  facetExactScore : Nat
  facetExpandedScore : Nat
  facetAuthorityScore : Nat
  facetDiversityScore : Nat
  facetTemporalScore : Nat
  facetStalePenalty : Nat
  privacyProfileEligibilityScore : Nat
  staleSupersededPenalty : Nat
  totalScore : Nat
deriving DecidableEq, Repr

/-- The saturating sum of the terms of a score, before penalties. -/
def GraphRecallCandidateScore.bonus (score : GraphRecallCandidateScore) (supersedesBonus : Nat)
    : Nat :=
  [score.entityAliasScore, score.temporalAnchorScore, score.sessionAliasScore,
    score.graphNeighborhoodScore, score.temporalValidityScore, score.temporalReasoningScore,
    score.evidenceQualityScore, score.multiEvidenceCoverageScore, score.sourceAuthorityScore,
    score.facetExactScore, score.facetExpandedScore, score.facetAuthorityScore,
    score.facetDiversityScore, score.facetTemporalScore, score.privacyProfileEligibilityScore,
    supersedesBonus].foldl satAdd score.lexicalScore

/-- All terms of the score, with no total yet. -/
def scoreTerms (query nodeId : String) (graph : TemporalMemoryGraph)
    (facetContext : GraphFacetPropagationContext)
    : GraphRecallCandidateScore :=
  let node := graph.node nodeId
  let sourceAuthority := graphAuthority nodeId graph
  let facetGroups := graphFacetEvidenceGroups nodeId graph facetContext
  { candidateId := nodeId
    lexicalScore := lexicalGraphScore tables query node
    entityAliasScore := graphEntityAliasScore tables query node
    temporalAnchorScore := graphTemporalAnchorScore tables query node
    sessionAliasScore := graphSessionAliasScore tables query node
    graphNeighborhoodScore := graphNeighborhoodScore nodeId graph
    temporalValidityScore := min (graphObservedRank nodeId graph) 10000
    temporalReasoningScore := graphTemporalReasoningScore nodeId graph
    evidenceQualityScore := evidenceQualityScore nodeId graph
    multiEvidenceCoverageScore :=
      (node.map fun node =>
        graphMultiEvidenceCoverageScore (graphEvidenceGroupCount tables node)).getD 0
    sourceAuthorityScore := sourceAuthority
    facetExactScore := graphFacetExactScore nodeId graph facetContext
    facetExpandedScore := graphFacetExpandedScore nodeId graph facetContext
    facetAuthorityScore := graphFacetAuthorityScore nodeId graph facetContext sourceAuthority
      (!facetGroups.isEmpty)
    facetDiversityScore := graphFacetDiversityScore facetGroups facetContext
    facetTemporalScore := graphFacetTemporalScore nodeId graph facetContext
    facetStalePenalty :=
      if !facetContext.isEmpty && graphNodeIsSuperseded nodeId graph then 2500 else 0
    privacyProfileEligibilityScore :=
      if node.any fun node => (node.validateContract tables).accepted then 100 else 0
    staleSupersededPenalty := if graphNodeIsSuperseded nodeId graph then 10000 else 0
    totalScore := 0 }

def supersedesBonus (nodeId : String) (graph : TemporalMemoryGraph) : Nat :=
  if supersedesOther nodeId graph then 1000 else 0

def graphRecallCandidateScoreWithFacets (query nodeId : String) (graph : TemporalMemoryGraph)
    (facetContext : GraphFacetPropagationContext)
    : GraphRecallCandidateScore :=
  let terms := scoreTerms tables query nodeId graph facetContext
  { terms with
    totalScore := terms.bonus (supersedesBonus nodeId graph) - terms.facetStalePenalty
      - terms.staleSupersededPenalty }

end BeetleMemory.Graph
