import RouteEngine.RouteRequest
import RouteEngine.CsvStream
import RouteEngine.Optimality

set_option autoImplicit false

/-! # The exit codes of the command route

What the identifiers of a request stand for in the two files (`RouteRequest.Resolves`), and how
`main` ends in each case. -/

namespace RouteEngine

/-! ## Finding nodes -/

theorem externalId_ne_of_not_lt {F : Type} {g : Graph F} {v : NodeId} (hv : ¬ v.toNat < g.nodeCount)
    (externalId : ExternalId) : g.externalId v ≠ .ok externalId := by
  have hcontains : g.contains v = false := by
    rw [← Bool.not_eq_true, g.contains_iff]
    exact hv
  simp [Graph.externalId, hcontains, Graph.outOfRange]

section Find

variable {F : Type} [IsFinite F] [Zero F] [Top F] [LT F] [DecidableLT F] [LE F] [DecidableLE F]
  [Div F]
variable {distance : Coord F → Coord F → F} {g : Graph F} {staged : List (StagedArc F)}

/-- The loop of `find_node` returns a node with the identifier, or there is none from `i` on. -/
theorem findFrom_cases (hg : g.OverArcs distance staged) (externalId : ExternalId) (fuel : Nat)
    (i : UInt32) (hi : i.toNat ≤ g.nodeCount) (hfuel : g.nodeCount < i.toNat + fuel) :
    (∃ v, findFrom g externalId fuel i = .ok (some v) ∧ g.externalId v = .ok externalId) ∨
      findFrom g externalId fuel i = .ok none ∧
        ∀ v : NodeId, i.toNat ≤ v.toNat → g.externalId v ≠ .ok externalId := by
  induction fuel generalizing i with
  | zero => omega
  | succ fuel ih =>
      unfold findFrom
      by_cases hlt : i.toNat < g.nodeCount
      · have hid := hg.externalId_eq hlt
        rw [if_pos hlt, hid, ok_bind]
        by_cases heq : idAt g i = externalId
        · refine .inl ⟨i, by simp [heq], ?_⟩
          rw [hid, heq]
        · have hnext : (i + 1).toNat = i.toNat + 1 := by
            have hle := hg.nodes_le
            unfold maxSupportedNodeCount at hle
            rw [UInt32.toNat_add]
            have hone : (1 : UInt32).toNat = 1 := rfl
            omega
          rw [if_neg heq]
          rcases ih (i + 1) (by omega) (by omega) with hfound | ⟨hnone, hall⟩
          · exact .inl hfound
          · refine .inr ⟨hnone, ?_⟩
            intro v hv
            by_cases hvi : v.toNat = i.toNat
            · rw [UInt32.toNat_inj.mp hvi, hid]
              simpa using heq
            · exact hall v (by omega)
      · refine .inr ⟨if_neg hlt, ?_⟩
        intro v hv
        exact externalId_ne_of_not_lt (by omega) externalId

/-- **`find_node`** returns a node with the identifier, or there is none. -/
theorem findNode_cases (hg : g.OverArcs distance staged) (externalId : ExternalId) :
    (∃ v, findNode g externalId = .ok (some v) ∧ g.externalId v = .ok externalId) ∨
      findNode g externalId = .ok none ∧ ∀ v, g.externalId v ≠ .ok externalId := by
  rcases findFrom_cases hg externalId (g.nodeCount + 1) 0 (Nat.zero_le _)
      (by simp) with hfound | ⟨hnone, hall⟩
  · exact .inl hfound
  · exact .inr ⟨hnone, fun v => hall v (Nat.zero_le _)⟩

theorem externalId_eq_ok_iff (hg : g.OverArcs distance staged) {v : NodeId}
    {externalId : ExternalId} :
    g.externalId v = .ok externalId ↔ g.externalIds[v.toNat]? = some externalId := by
  by_cases hv : v.toNat < g.nodeCount
  · have hlt : v.toNat < g.externalIds.length := hg.externalIds_length ▸ hv
    rw [hg.externalId_eq hv, idAt, List.getElem?_eq_getElem hlt]
    simp
  · have hnone : g.externalIds[v.toNat]? = none := by
      apply List.getElem?_eq_none
      rw [hg.externalIds_length]
      omega
    simp [externalId_ne_of_not_lt hv, hnone]

/-- With distinct identifiers, `find_node` returns the node. -/
theorem findNode_eq_some (hg : g.OverArcs distance staged) (hnodup : g.externalIds.Nodup)
    {v : NodeId} {externalId : ExternalId} (hv : g.externalId v = .ok externalId) :
    findNode g externalId = .ok (some v) := by
  rcases findNode_cases hg externalId with ⟨u, hfound, hu⟩ | ⟨-, hall⟩
  · rw [externalId_eq_ok_iff hg] at hu hv
    rcases List.getElem?_eq_some_iff.mp hv with ⟨hlt, hvalue⟩
    have hindex : u.toNat = v.toNat := by
      apply (hnodup.getElem_inj_iff).mp
      rw [hvalue]
      exact (List.getElem?_eq_some_iff.mp hu).2
    rw [hfound, UInt32.toNat_inj.mp hindex]
  · exact absurd hv (hall v)

end Find

/-! ## What the command prints -/

/-- The external identifiers of a path, as they are printed. -/
def pathText (ids : List ExternalId) : String :=
  " -> ".intercalate (ids.map (fun externalId => toString externalId.toNat))

/-- The first lines of every answer. -/
def queryText (request : RouteRequest) : String :=
  "algorithm:        " ++ algorithmName request.algorithm ++ "\n" ++
  "from:             " ++ toString request.fromId.toNat ++ "\n" ++
  "to:               " ++ toString request.toId.toNat ++ "\n"

/-- The answer that reports a route through the nodes `ids`. -/
def routeText (request : RouteRequest) (costText : String) (ids : List ExternalId)
    (stats : SearchStats) : String :=
  queryText request ++
  "route:            found\n" ++
  "total cost:       " ++ costText ++ "\n" ++
  "nodes on path:    " ++ toString ids.length ++ "\n" ++
  "path:             " ++ pathText ids ++ "\n" ++ statsText stats

/-- The answer that reports no route. -/
def noRouteText (request : RouteRequest) (stats : SearchStats) : String :=
  queryText request ++ "route:            not found\n" ++ statsText stats

section Print

variable {Φ F : Type} {g : Graph F}

theorem pathText_cons (externalId : ExternalId) (ids : List ExternalId) :
    pathText (externalId :: ids) = toString externalId.toNat ++
      ((if ids ≠ [] then " -> " else "") ++ pathText ids) := by
  cases ids with
  | nil => simp [pathText]
  | cons next ids => simp [pathText, String.append_assoc]

/-- The loop prints the identifiers from node `i` of the path on. -/
theorem printPath_eq {path : List NodeId}
    (hpath : ∀ v ∈ path, g.externalId v = .ok (idAt g v)) (i : Nat) (w : World Φ) :
    printPath g path i w = .ok () { w with
      out := w.out ++ ((if i ≠ 0 ∧ path ≠ [] then " -> " else "") ++
        pathText (path.map (idAt g))) } := by
  induction path generalizing i w with
  | nil => simp [printPath, pathText]
  | cons v path ih =>
      have hv := hpath v (by simp)
      have hrest := fun w => ih (fun u hu => hpath u (List.mem_cons_of_mem v hu)) (i + 1) w
      rw [List.map_cons, pathText_cons]
      by_cases hi : i = 0
      · subst hi
        simp [printPath, hv, printOut, hrest, String.append_assoc]
      · simp [printPath, hv, printOut, hrest, hi, String.append_assoc]

end Print

/-! ## Loading -/

section Load

variable {Φ F : Type} [IsFinite F] [Zero F] [Top F] [LT F] [DecidableLT F] [LE F] [DecidableLE F]
  [Div F] [FiniteOrder F]

/-- A file that cannot be opened, or an error in a text, ends the loading. -/
theorem loadGraphFiles_cases (env : Platform Φ F) (files : Φ)
    (nodesPath edgesPath : String) :
    (∃ g staged, loadGraphFiles env files nodesPath edgesPath = .ok g ∧
        g.OverArcs env.distance staged ∧ g.externalIds.Nodup) ∨
      ∃ file line message,
        loadGraphFiles env files nodesPath edgesPath = .error (.graphLoad file line message) := by
  unfold loadGraphFiles
  cases env.openFile files nodesPath with
  | none => exact .inr ⟨_, _, _, rfl⟩
  | some nodes =>
  cases env.openFile files edgesPath with
  | none => exact .inr ⟨_, _, _, rfl⟩
  | some edges =>
      have htext : loadGraph env.fromChars env.distance env.std ⟨splitLines nodes.1, nodes.2⟩
          nodesPath ⟨splitLines edges.1, edges.2⟩ edgesPath
          = loadGraph env.fromChars env.distance env.std (.ofText nodes.1) nodesPath
            (.ofText edges.1) edgesPath := by
        apply loadGraph_congr
        · rfl
        · rfl
      rcases loadGraph_cases env.fromChars env.distance env.std nodes.1 edges.1 nodesPath edgesPath
        with ⟨rows, arcs, hnodes, hedges⟩ | ⟨file, line, message, herror⟩
      · refine .inl ⟨_, env.std.sort arcs, ?_, overArcs_of_files env.distance env.std hnodes hedges,
          hnodes.distinct⟩
        dsimp only
        rw [htext]
        exact loadGraph_of_files env.distance env.std hnodes hedges nodesPath edgesPath
      · refine .inr ⟨file, line, message, ?_⟩
        dsimp only
        rw [htext]
        exact herror

theorem exists_overArcs_of_load {env : Platform Φ F} {files : Φ} {nodesPath edgesPath : String}
    {g : Graph F} (h : loadGraphFiles env files nodesPath edgesPath = .ok g) :
    ∃ staged, g.OverArcs env.distance staged := by
  rcases loadGraphFiles_cases env files nodesPath edgesPath with
    ⟨g', staged, hload, hover, -⟩ | ⟨file, line, message, herror⟩
  · obtain rfl := Except.ok.inj (hload.symm.trans h)
    exact ⟨staged, hover⟩
  · rw [h] at herror
    cases herror

end Load

/-! ## The answer -/

section Answer

variable {Φ K : Type} [Field K] [LinearOrder K]
variable {env : Platform Φ (WithTop K)}
  {request : RouteRequest} {g : Graph (WithTop K)} {source target : NodeId}

/-- `load_graph` returns the graph, and the two identifiers are those of its nodes. -/
structure RouteRequest.Resolves (env : Platform Φ (WithTop K)) (files : Φ)
    (request : RouteRequest) (g : Graph (WithTop K)) (source target : NodeId) : Prop where
  load : loadGraphFiles env files request.nodes request.edges = .ok g
  source : g.externalId source = .ok request.fromId
  target : g.externalId target = .ok request.toId

variable (others : OtherCommands Φ) {arguments : List String} (w : World Φ)

theorem RouteRequest.Resolves.exists_overArcs {files : Φ}
    (h : request.Resolves env files g source target) :
    g.externalIds.Nodup ∧ ∃ staged, g.OverArcs env.distance staged := by
  rcases loadGraphFiles_cases env files request.nodes request.edges with
    ⟨g', staged, hload, hover, hnodup⟩ | ⟨file, line, message, herror⟩
  · have hgraph : g = g' := Except.ok.inj (h.load.symm.trans hload)
    subst hgraph
    exact ⟨hnodup, staged, hover⟩
  · rw [h.load] at herror
    cases herror

/-- A request that does not resolve is a data error. -/
theorem main_of_not_resolves (hgiven : request.Given arguments)
    (h : ∀ g source target, ¬ request.Resolves env w.files g source target) :
    ∃ message, main env others ("route" :: arguments) w
      = .ok (kExitData, { w with err := w.err ++ message }) := by
  unfold main
  rw [run_of_given env others hgiven]
  unfold answerRoute
  rcases loadGraphFiles_cases env w.files request.nodes request.edges with
    ⟨g, staged, hload, hover, hnodup⟩ | ⟨file, line, message, herror⟩
  · rcases findNode_cases hover request.fromId with ⟨source, hfind, hsource⟩ | ⟨hnone, -⟩
    · rcases findNode_cases hover request.toId with ⟨target, -, htarget⟩ | ⟨hnone, -⟩
      · exact absurd ⟨hload, hsource, htarget⟩ (h g source target)
      · simp [hload, hfind, hnone, dataError, printErr]
    · simp [hload, hnone, dataError, printErr]
  · simp [herror, reportError_eq]

/-- A resolved request goes on to the search. -/
theorem answerRoute_of_resolves (h : request.Resolves env w.files g source target)
    {staged : List (StagedArc (WithTop K))} (hover : g.OverArcs env.distance staged)
    (hnodup : g.externalIds.Nodup) :
    answerRoute env request.nodes request.edges request.fromId request.toId request.algorithm w
      = (do
        let result ← Method.lift (runSearch env.distance g source target request.algorithm)
        printOut (queryText request)
        if !result.found then
          printOut "route:            not found\n"
          printOut (statsText result.stats)
          return kExitNoRoute
        else
          printOut ("route:            found\n" ++
            "total cost:       " ++ env.numberText result.cost ++ "\n" ++
            "nodes on path:    " ++ toString result.path.length ++ "\n" ++
            "path:             ")
          printPath g result.path 0
          printOut "\n"
          printOut (statsText result.stats)
          return kExitSuccess) w := by
  unfold answerRoute
  simp only [Method.bind_apply, Method.get_apply, h.load, Method.lift_ok,
    findNode_eq_some hover hnodup h.source, findNode_eq_some hover hnodup h.target]
  rfl

theorem RouteRequest.Resolves.contains {files : Φ}
    (h : request.Resolves env files g source target) :
    g.contains source = true ∧ g.contains target = true := by
  constructor
  · rw [g.contains_iff]
    by_contra hlt
    exact externalId_ne_of_not_lt hlt _ h.source
  · rw [g.contains_iff]
    by_contra hlt
    exact externalId_ne_of_not_lt hlt _ h.target

/-- A graph that violates the metric contract is refused by `astar-euclidean`. -/
theorem main_of_violation (hgiven : request.Given arguments)
    (h : request.Resolves env w.files g source target)
    (halgorithm : request.algorithm = .astarEuclidean) (hviolation : g.metric.passes = false) :
    ∃ message, main env others ("route" :: arguments) w
      = .ok (kExitHeuristicContract, { w with err := w.err ++ message }) := by
  rcases h.exists_overArcs with ⟨hnodup, staged, hover⟩
  rcases h.contains with ⟨hs, ht⟩
  unfold main
  rw [run_of_given env others hgiven, answerRoute_of_resolves w h hover hnodup, halgorithm]
  simp [runSearch_refused hs ht hviolation, heuristicContractError, reportError_eq]

/-- The text that reports the result of a search. -/
def answerText (env : Platform Φ (WithTop K)) (request : RouteRequest) (g : Graph (WithTop K))
    (result : SearchResult (WithTop K)) : String :=
  if result.status = .found then
    routeText request (env.numberText result.cost) (result.path.map (idAt g)) result.stats
  else noRouteText request result.stats

/-- The result of a search that returns is printed. -/
theorem main_of_result (hgiven : request.Given arguments)
    (h : request.Resolves env w.files g source target) {result : SearchResult (WithTop K)}
    (hresult : runSearch env.distance g source target request.algorithm = .ok result)
    (hpath : result.status = .found → ∀ v ∈ result.path, g.contains v = true) :
    main env others ("route" :: arguments) w
      = .ok (if result.status = .found then kExitSuccess else kExitNoRoute,
          { w with out := w.out ++ answerText env request g result }) := by
  rcases h.exists_overArcs with ⟨hnodup, staged, hover⟩
  unfold main
  rw [run_of_given env others hgiven, answerRoute_of_resolves w h hover hnodup]
  by_cases hfound : result.status = .found
  · have hids : ∀ v ∈ result.path, g.externalId v = .ok (idAt g v) := by
      intro v hv
      exact hover.externalId_eq ((g.contains_iff v).mp (hpath hfound v hv))
    simp [hresult, printOut, SearchResult.found, hfound, printPath_eq hids, answerText, routeText,
      String.append_assoc]
  · simp [hresult, printOut, SearchResult.found, hfound, answerText, noRouteText,
      String.append_assoc]

end Answer

/-! ## The exit codes -/

section ExitCodes

variable {Φ K : Type} [Field K] [LinearOrder K] [IsStrictOrderedRing K] {d : PlaneDistance K}
variable {env : Platform Φ (WithTop K)} (others : OtherCommands Φ)
variable {request : RouteRequest} {arguments : List String} {w : World Φ}
  {g : Graph (WithTop K)} {source target : NodeId}

/-- An arc is shorter than the distance between its endpoints. -/
def Graph.HasShortArc (distance : Coord (WithTop K) → Coord (WithTop K) → WithTop K)
    (g : Graph (WithTop K)) : Prop :=
  ∃ u v weight, g.HasArc u v weight ∧
    weight < distance (coordAt g.coordinates u) (coordAt g.coordinates v)

omit [IsStrictOrderedRing K] in
theorem passes_iff_not_hasShortArc {distance : Coord (WithTop K) → Coord (WithTop K) → WithTop K}
    {staged : List (StagedArc (WithTop K))} (hg : g.OverArcs distance staged) :
    g.metric.passes = true ↔ ¬ g.HasShortArc distance := by
  rw [hg.metric_eq, canonicalReport_passes_iff]
  constructor
  · rintro hall ⟨u, v, weight, harc, hlt⟩
    exact absurd (hall _ ((hg.hasArc_iff u v weight).mp harc)) (not_le.mpr hlt)
  · intro hnone a ha
    by_contra hlt
    exact hnone ⟨a.source, a.target, a.weight, (hg.hasArc_iff _ _ _).mpr ha, not_le.mp hlt⟩

/-- A resolved request that keeps the contract, where it is asked for, is answered. -/
theorem main_of_answers (hdistance : env.distance = d.lift) (hgiven : request.Given arguments)
    (h : request.Resolves env w.files g source target)
    (hpass : request.algorithm = .astarEuclidean → ¬ g.HasShortArc d.lift) :
    ∃ result : SearchResult (WithTop K), result.Answers g source target ∧
      main env others ("route" :: arguments) w
        = .ok (if result.status = .found then kExitSuccess else kExitNoRoute,
            { w with out := w.out ++ answerText env request g result }) := by
  rcases h.exists_overArcs with ⟨-, staged, hover⟩
  rcases h.contains with ⟨hs, ht⟩
  rw [hdistance] at hover
  rcases runSearch_answers hover hs ht request.algorithm
    (fun halgorithm => (passes_iff_not_hasShortArc hover).mpr (hpass halgorithm)) with
    ⟨result, hresult, hanswers⟩
  refine ⟨result, hanswers, main_of_result others w hgiven h (by rwa [hdistance]) ?_⟩
  intro hfound v hv
  rcases hanswers.walk hfound with ⟨before, hpath, hwalk⟩
  rw [hpath, List.mem_reverse] at hv
  exact hover.contains_of_walk hs hwalk v hv

/-- A resolved request is refused by the contract or answered. -/
theorem main_of_resolves (hdistance : env.distance = d.lift) (hgiven : request.Given arguments)
    (h : request.Resolves env w.files g source target) :
    ((request.algorithm = .astarEuclidean ∧ g.HasShortArc d.lift) ∧ ∃ message,
        main env others ("route" :: arguments) w
          = .ok (kExitHeuristicContract, { w with err := w.err ++ message })) ∨
      ¬ (request.algorithm = .astarEuclidean ∧ g.HasShortArc d.lift) ∧
        ∃ result : SearchResult (WithTop K), result.Answers g source target ∧
          main env others ("route" :: arguments) w
            = .ok (if result.status = .found then kExitSuccess else kExitNoRoute,
                { w with out := w.out ++ answerText env request g result }) := by
  by_cases hrefused : request.algorithm = .astarEuclidean ∧ g.HasShortArc d.lift
  · refine .inl ⟨hrefused, main_of_violation others w hgiven h hrefused.1 ?_⟩
    rcases h.exists_overArcs with ⟨-, staged, hover⟩
    rw [hdistance] at hover
    rw [← Bool.not_eq_true, passes_iff_not_hasShortArc hover]
    exact not_not.mpr hrefused.2
  · refine .inr ⟨hrefused, main_of_answers others hdistance hgiven h ?_⟩
    intro halgorithm hshort
    exact hrefused ⟨halgorithm, hshort⟩

/-- `main` returns an exit code whatever the arguments and the files, and changes no file. -/
theorem main_route_returns (hdistance : env.distance = d.lift) (arguments : List String)
    (w : World Φ) :
    ∃ code out err, main env others ("route" :: arguments) w = .ok (code, ⟨out, err, w.files⟩) := by
  by_cases hgiven : ∃ request : RouteRequest, request.Given arguments
  · rcases hgiven with ⟨request, hgiven⟩
    by_cases hresolves : ∃ g source target, request.Resolves env w.files g source target
    · rcases hresolves with ⟨g, source, target, h⟩
      rcases main_of_resolves others hdistance hgiven h with
        ⟨-, message, hmain⟩ | ⟨-, result, -, hmain⟩
      · exact ⟨_, _, _, hmain⟩
      · exact ⟨_, _, _, hmain⟩
    · rcases main_of_not_resolves others w hgiven
        (fun g source target h => hresolves ⟨g, source, target, h⟩) with ⟨message, hmain⟩
      exact ⟨_, _, _, hmain⟩
  · rcases main_of_not_given (Φ := Φ) (F := WithTop K) (not_exists.mp hgiven) with
      ⟨message, hmain⟩
    exact ⟨_, _, _, hmain env others w⟩

/-- **The exit codes of `route`**, over exact arithmetic and for all arguments and files. Code 2
is for arguments that are no request, and then no file matters; code 3 for files that cannot be
loaded or do not hold the two identifiers; code 4 for `astar-euclidean` on a graph with an arc
shorter than the distance between its endpoints; code 1 where no directed path leads from one
node to the other; and otherwise the code is 0 and the printed path is a route of least cost. -/
theorem main_route_exit_codes (hdistance : env.distance = d.lift) (arguments : List String)
    (w : World Φ) :
    ∃ code out err, main env others ("route" :: arguments) w = .ok (code, ⟨out, err, w.files⟩) ∧
      (code = kExitUsage ↔ ∀ request : RouteRequest, ¬ request.Given arguments) ∧
      (code = kExitUsage → ∀ (env' : Platform Φ (WithTop K)) (files' : Φ),
        main env' others ("route" :: arguments) ⟨w.out, w.err, files'⟩
          = .ok (code, ⟨out, err, files'⟩)) ∧
      ∀ request : RouteRequest, request.Given arguments →
        (code = kExitData ↔ ∀ g source target, ¬ request.Resolves env w.files g source target) ∧
        ∀ g source target, request.Resolves env w.files g source target →
          (code = kExitHeuristicContract ↔
            request.algorithm = .astarEuclidean ∧ g.HasShortArc d.lift) ∧
          (code ≠ kExitHeuristicContract →
            (code = kExitNoRoute ↔ ¬ Digraph.Reachable g.HasArc source target) ∧
            (code ≠ kExitNoRoute → code = kExitSuccess ∧
              ∃ before cost stats, Digraph.Walk g.HasArc source before target cost ∧
                IsLeast {c | Digraph.WalkCost g.HasArc source target c} cost ∧
                out = w.out ++ routeText request (env.numberText cost)
                  ((target :: before).reverse.map (idAt g)) stats)) := by
  rcases main_route_returns others hdistance arguments w with ⟨code, out, err, hmain⟩
  -- what another lemma says of the same run holds of this code
  have hcode : ∀ {code' w'}, main env others ("route" :: arguments) w = .ok (code', w') →
      code = code' ∧ w' = ⟨out, err, w.files⟩ := by
    intro code' w' hmain'
    rw [hmain, Except.ok.injEq, Prod.mk.injEq] at hmain'
    exact ⟨hmain'.1, hmain'.2.symm⟩
  -- the codes of a resolved request
  have hresolved : ∀ request : RouteRequest, request.Given arguments →
      ∀ g source target, request.Resolves env w.files g source target →
        code = kExitHeuristicContract ∨ code = kExitSuccess ∨ code = kExitNoRoute := by
    intro request hgiven g source target h
    rcases main_of_resolves others hdistance hgiven h with
      ⟨-, message, hmain'⟩ | ⟨-, result, -, hmain'⟩
    · exact .inl (hcode hmain').1
    · rw [(hcode hmain').1]
      split_ifs <;> simp
  have hrequest : code = kExitUsage → ∀ request : RouteRequest, ¬ request.Given arguments := by
    intro husage request hgiven
    by_cases hresolves : ∃ g source target, request.Resolves env w.files g source target
    · rcases hresolves with ⟨g, source, target, h⟩
      rw [husage] at hresolved
      exact absurd (hresolved request hgiven g source target h) (by decide)
    · rcases main_of_not_resolves others w hgiven
        (fun g source target h => hresolves ⟨g, source, target, h⟩) with ⟨message, hmain'⟩
      exact absurd (husage.symm.trans (hcode hmain').1) (by decide)
  refine ⟨code, out, err, hmain, ⟨hrequest, ?_⟩, ?_, ?_⟩
  · intro hnone
    rcases main_of_not_given (Φ := Φ) (F := WithTop K) hnone with ⟨message, hmain'⟩
    exact (hcode (hmain' env others w)).1
  · -- no file was read, so the same message is printed for other files
    intro husage env' files'
    rcases main_of_not_given (Φ := Φ) (F := WithTop K) (hrequest husage) with ⟨message, hmain'⟩
    have hw := (hcode (hmain' env others w)).2
    have hout : w.out = out := congrArg World.out hw
    have herr : w.err ++ message = err := congrArg World.err hw
    rw [hmain' env' others ⟨w.out, w.err, files'⟩, husage, ← hout, ← herr]
  · intro request hgiven
    refine ⟨⟨?_, ?_⟩, ?_⟩
    · intro hdata g source target h
      rw [hdata] at hresolved
      exact absurd (hresolved request hgiven g source target h) (by decide)
    · intro hnone
      rcases main_of_not_resolves others w hgiven hnone with ⟨message, hmain'⟩
      exact (hcode hmain').1
    · intro g source target h
      rcases main_of_resolves others hdistance hgiven h with
        ⟨hrefused, message, hmain'⟩ | ⟨hkept, result, hanswers, hmain'⟩
      · rw [(hcode hmain').1]
        exact ⟨iff_of_true rfl hrefused, fun hne => absurd rfl hne⟩
      · rcases hcode hmain' with ⟨hcode, hw⟩
        by_cases hfound : result.status = .found
        · rw [if_pos hfound] at hcode
          rw [hcode]
          refine ⟨iff_of_false (by decide) hkept, fun _ => ⟨iff_of_false (by decide) ?_, ?_⟩⟩
          · exact not_not.mpr (hanswers.found_iff.mp hfound)
          · intro _
            rcases hanswers.walk hfound with ⟨before, hpath, hwalk⟩
            refine ⟨rfl, before, result.cost, result.stats, hwalk, hanswers.isLeast hfound, ?_⟩
            rw [← hpath]
            have hout : w.out ++ answerText env request g result = out := congrArg World.out hw
            rw [← hout, answerText, if_pos hfound]
        · rw [if_neg hfound] at hcode
          rw [hcode]
          refine ⟨iff_of_false (by decide) hkept, fun _ => ⟨iff_of_true rfl ?_, ?_⟩⟩
          · exact fun hreach => hfound (hanswers.found_iff.mpr hreach)
          · exact fun hne => absurd rfl hne

end ExitCodes

/-- Files that hold the road, as a map from paths to contents. -/
def roadFiles (path : String) : Option Text :=
  if path = "nodes.csv" then some "id,x,y\n7,0,0\n8,1,0\n9,2,0\n".toList
  else if path = "edges.csv" then
    some "source,target,weight\n7,9,5\n7,8,3\n8,9,1\n7,8,1\n".toList
  else none

/-- Numerals of natural numbers, the only ones in the files of the road. -/
def naturalNumeral (text : Text) : Option (WithTop ℚ × Text) :=
  (fromCharsU64 text).map (fun read => (((read.1.toNat : ℚ) : WithTop ℚ), read.2))

/-- A program that reads the files of the road. -/
def roadPlatform : Platform (String → Option Text) (WithTop ℚ) where
  fromChars := naturalNumeral
  distance := taxicab.lift
  std := Comparison.insertionSort _
  openFile files path := (files path).map (fun text => (text, .endOfFile))
  numberText cost := toString (cost.untopD 0).num

/-- The other commands are not called by `route`. -/
def noOtherCommands : OtherCommands (String → Option Text) :=
  ⟨fun _ => return kExitUsage, fun _ => return kExitUsage, fun _ => return kExitUsage⟩

theorem main_route_exit_codes_road :
    ∃ code out err, main roadPlatform noOtherCommands ["route", "--from", "7", "--to", "09",
        "--nodes", "nodes.csv", "--algorithm", "astar-euclidean", "--edges", "edges.csv"]
        ⟨"", "", roadFiles⟩ = .ok (code, ⟨out, err, roadFiles⟩) ∧
      code = kExitSuccess ∧ ∃ request : RouteRequest, request.Given ["--from", "7", "--to", "09",
        "--nodes", "nodes.csv", "--algorithm", "astar-euclidean", "--edges", "edges.csv"] := by
  have hdistance : roadPlatform.distance = taxicab.lift := rfl
  rcases main_route_exit_codes noOtherCommands hdistance
    ["--from", "7", "--to", "09", "--nodes", "nodes.csv", "--algorithm", "astar-euclidean",
      "--edges", "edges.csv"] ⟨"", "", roadFiles⟩ with ⟨code, out, err, hmain, husage, -⟩
  have hrun : (main roadPlatform noOtherCommands ["route", "--from", "7", "--to", "09",
      "--nodes", "nodes.csv", "--algorithm", "astar-euclidean", "--edges", "edges.csv"]
      ⟨"", "", roadFiles⟩).map Prod.fst = .ok kExitSuccess := by
    decide +kernel
  rw [hmain] at hrun
  have hcode : code = kExitSuccess := Except.ok.inj hrun
  refine ⟨code, out, err, hmain, hcode, ?_⟩
  by_contra hnone
  have hcode' := husage.mpr (not_exists.mp hnone)
  exact absurd (hcode.symm.trans hcode') (by decide)

end RouteEngine
