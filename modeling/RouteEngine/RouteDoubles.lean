import RouteEngine.BenchmarkCommand
import RouteEngine.CommandEnds

set_option autoImplicit false

/-! # The command route on doubles

The exit codes of `route` in the arithmetic that the program has (`main_route_doubles`). Its
printed route is a walk of the loaded graph whose rounded cost is the printed one. -/

namespace RouteEngine

/-- `load_graph` returns the graph, and the two identifiers are those of its nodes. -/
structure RouteRequest.Names {Φ F : Type} [IsFinite F] [Zero F] [Top F] [LT F] [DecidableLT F]
    [LE F] [DecidableLE F] [Div F] (env : Platform Φ F) (files : Φ) (request : RouteRequest)
    (g : Graph F) (source target : NodeId) : Prop where
  load : loadGraphFiles env files request.nodes request.edges = .ok g
  source : g.externalId source = .ok request.fromId
  target : g.externalId target = .ok request.toId

section Names

variable {Φ F : Type} [IsFinite F] [Zero F] [Top F] [LT F] [DecidableLT F] [LE F] [DecidableLE F]
  [Div F] [FiniteOrder F]
variable {env : Platform Φ F} {files : Φ} {request : RouteRequest} {g g' : Graph F}
  {source target source' target' : NodeId}

/-- Identifiers of loaded nodes are distinct, so a request names one pair of nodes. -/
theorem RouteRequest.Names.unique (h : request.Names env files g source target)
    (h' : request.Names env files g' source' target') :
    g' = g ∧ source' = source ∧ target' = target := by
  obtain rfl : g' = g := Except.ok.inj (h'.load.symm.trans h.load)
  rcases loadGraphFiles_cases env files request.nodes request.edges with
    ⟨g, staged, hload, hover, hnodup⟩ | ⟨file, line, message, herror⟩
  · obtain rfl : g = g' := Except.ok.inj (hload.symm.trans h.load)
    have hsame : ∀ {u v externalId}, g.externalId u = .ok externalId →
        g.externalId v = .ok externalId → v = u := by
      intro u v externalId hu hv
      have hfound := (findNode_eq_some hover hnodup hu).symm.trans
        (findNode_eq_some hover hnodup hv)
      exact (Option.some.inj (Except.ok.inj hfound)).symm
    exact ⟨rfl, hsame h.source h'.source, hsame h.target h'.target⟩
  · rw [h.load] at herror
    cases herror

end Names

/-- Arguments are those of one request. -/
theorem RouteRequest.Given.unique {request request' : RouteRequest} {arguments : List String}
    (h : request.Given arguments) (h' : request'.Given arguments) : request' = request := by
  obtain ⟨options, hparse, hheld⟩ := h.exists_held
  obtain ⟨options', hparse', hheld'⟩ := h'.exists_held
  obtain rfl : options' = options := Except.ok.inj (hparse'.symm.trans hparse)
  have hid : ∀ {text value value'}, IsDecimal text value → IsDecimal text value' →
      value' = value := by
    intro text value value' hvalue hvalue'
    have hread := (fromCharsU64_eq_some_iff.mpr hvalue).symm.trans
      (fromCharsU64_eq_some_iff.mpr hvalue')
    exact (Prod.mk.inj (Option.some.inj hread)).1.symm
  have halgorithm := parseAlgorithm_eq_some_iff.mpr hheld.algorithm
  rw [parseAlgorithm_eq_some_iff.mpr hheld'.algorithm, Option.some.injEq] at halgorithm
  obtain ⟨nodes, edges, fromId, toId, algorithm⟩ := request
  obtain ⟨nodes', edges', fromId', toId', algorithm'⟩ := request'
  simp only [RouteRequest.mk.injEq]
  exact ⟨hheld'.nodes.1.symm.trans hheld.nodes.1, hheld'.edges.1.symm.trans hheld.edges.1,
    hid hheld.fromId hheld'.fromId, hid hheld.toId hheld'.toId, halgorithm⟩

/-- **The exit codes of `route`** on doubles, for all arguments and files. Code 2 is for arguments
that are no request; code 3 for files that cannot be loaded or do not hold the two identifiers;
code 4 for `astar-euclidean` on a graph that violates the metric contract. Otherwise the result
of a search is printed, and the code is 0 if it found a route and 1 if it did not: a printed route
is a walk at the rounded cost that is printed. Without the heuristic a route is found whenever
one has a finite cost, and none costs less. -/
theorem main_route_doubles {Φ : Type} (env : Platform Φ Binary64)
    (hdistance : UnsignedDistance env.distance) (others : OtherCommands Φ)
    (arguments : List String) (w : World Φ) :
    ∃ code out err, main env others ("route" :: arguments) w = .ok (code, ⟨out, err, w.files⟩) ∧
      (code = kExitUsage ↔ ∀ request : RouteRequest, ¬ request.Given arguments) ∧
      ∀ request : RouteRequest, request.Given arguments →
        (code = kExitData ↔ ∀ g source target, ¬ request.Names env w.files g source target) ∧
        ∀ g source target, request.Names env w.files g source target →
          (code = kExitHeuristicContract ↔
            request.algorithm = .astarEuclidean ∧ g.metric.passes = false) ∧
          (code ≠ kExitHeuristicContract → ∃ result : SearchResult Binary64,
            result.SoundOnDoubles g source target ∧
            out = w.out ++ resultText env request g result ∧ err = w.err ∧
            code = (if result.status = .found then kExitSuccess else kExitNoRoute) ∧
            (request.algorithm ≠ .astarEuclidean →
              (code = kExitSuccess ↔ ∃ c : Binary64, c.isFinite = true ∧
                Digraph.WalkCost g.HasArc source target c) ∧
              ∀ c, Digraph.WalkCost g.HasArc source target c → result.cost ≤ c)) := by
  by_cases hgiven : ∃ request : RouteRequest, request.Given arguments
  swap
  · obtain ⟨message, hmain⟩ := main_of_not_given (Φ := Φ) (F := Binary64) (not_exists.mp hgiven)
    exact ⟨_, _, _, hmain env others w, iff_of_true rfl (not_exists.mp hgiven),
      fun request h => absurd ⟨request, h⟩ hgiven⟩
  obtain ⟨request, hgiven⟩ := hgiven
  have hrun := congrFun (run_of_given env others hgiven) w
  have hend := answerRoute_ends (searchesEnd_doubles hdistance) request w
  rw [← hrun] at hend
  generalize hresult : run env others ("route" :: arguments) w = result at hend
  have hnot : ¬ ∀ request : RouteRequest, ¬ request.Given arguments := fun h => h request hgiven
  have honly : ∀ {P : RouteRequest → Prop}, P request →
      ∀ request' : RouteRequest, request'.Given arguments → P request' := by
    intro P hP request' hgiven'
    rw [hgiven.unique hgiven']
    exact hP
  cases hend with
  | notLoaded herror =>
      refine ⟨_, _, _, main_of_run_error hresult rfl, iff_of_false (by decide) hnot, honly ?_⟩
      have hnone : ∀ g source target, ¬ request.Names env w.files g source target := by
        intro g source target h
        rw [h.load] at herror
        cases herror
      exact ⟨iff_of_true rfl hnone, fun g source target h => absurd h (hnone g source target)⟩
  | unknownNode hload hunknown =>
      refine ⟨_, _, _, main_of_run_ok hresult, iff_of_false (by decide) hnot, honly ?_⟩
      have hnone : ∀ g source target, ¬ request.Names env w.files g source target := by
        intro g source target h
        obtain rfl := Except.ok.inj (hload.symm.trans h.load)
        rcases hunknown with hnone | hnone
        · exact hnone source h.source
        · exact hnone target h.target
      exact ⟨iff_of_true rfl hnone, fun g source target h => absurd h (hnone g source target)⟩
  | refused hload hsource htarget halgorithm hfails =>
      refine ⟨_, _, _, main_of_run_error hresult rfl, iff_of_false (by decide) hnot, honly ?_⟩
      have hnames : request.Names env w.files _ _ _ := ⟨hload, hsource, htarget⟩
      refine ⟨iff_of_false (by decide) fun h => h _ _ _ hnames, fun g source target h => ?_⟩
      obtain ⟨rfl, rfl, rfl⟩ := hnames.unique h
      exact ⟨iff_of_true rfl ⟨halgorithm, hfails⟩, fun hne => absurd rfl hne⟩
  | answered hload hsource htarget hpass hsearch =>
      refine ⟨_, _, _, main_of_run_ok hresult, iff_of_false (by split_ifs <;> decide) hnot,
        honly ?_⟩
      have hnames : request.Names env w.files _ _ _ := ⟨hload, hsource, htarget⟩
      refine ⟨iff_of_false (by split_ifs <;> decide) fun h => h _ _ _ hnames,
        fun g source target h => ?_⟩
      obtain ⟨rfl, rfl, rfl⟩ := hnames.unique h
      have hs := contains_of_externalId hsource
      have ht := contains_of_externalId htarget
      obtain ⟨staged, hover⟩ := exists_overArcs_of_load hload
      obtain ⟨result, hfound, hsound⟩ :=
        runSearch_sound hover hdistance hs ht request.algorithm hpass
      obtain rfl := Except.ok.inj (hfound.symm.trans hsearch)
      refine ⟨iff_of_false (by split_ifs <;> decide) fun hrefused => ?_, fun _ =>
        ⟨result, hsound, rfl, rfl, rfl, fun hplain => ?_⟩⟩
      · rw [hpass hrefused.1] at hrefused
        cases hrefused.2
      · obtain ⟨least, hleast, hiff, hle⟩ := dijkstra_least_doubles hover hs ht
        -- the two other algorithms are the same search
        have hdijkstra : runSearch env.distance g source target request.algorithm
            = dijkstra g source target := by
          cases halgorithm : request.algorithm with
          | dijkstra => rfl
          | astarZero => rfl
          | astarEuclidean => exact absurd halgorithm hplain
        obtain rfl := Except.ok.inj (hfound.symm.trans (hdijkstra.trans hleast))
        refine ⟨?_, hle⟩
        rw [← hiff]
        by_cases hstatus : result.status = .found
        · simp [hstatus]
        · simp [hstatus, kExitSuccess, kExitNoRoute]

/-- The way along the street. -/
def streetRequest : RouteRequest := ⟨"nodes.csv", "edges.csv", 7, 8, .dijkstra⟩

theorem streetRequest_given : streetRequest.Given ["--nodes", "nodes.csv", "--edges", "edges.csv",
    "--from", "7", "--to", "8", "--algorithm", "dijkstra"] :=
  ⟨"7", "8", streetRequest.groups "7" "8", by decide, by decide,
    parseInteger_eq_some_iff.mp (by decide), parseInteger_eq_some_iff.mp (by decide), .refl _,
    rfl⟩

theorem main_route_doubles_street :
    ∃ out, main streetPlatform
        ⟨fun _ => return 0, fun _ => return 0, fun _ => return 0⟩ ["route", "--nodes", "nodes.csv",
          "--edges", "edges.csv", "--from", "7", "--to", "8", "--algorithm", "dijkstra"]
        ⟨"", "", streetFiles⟩ = .ok (kExitSuccess, ⟨out, "", streetFiles⟩) := by
  obtain ⟨code, out, err, hmain, -, hgiven⟩ := main_route_doubles streetPlatform
    lineDistance_unsigned ⟨fun _ => return 0, fun _ => return 0, fun _ => return 0⟩ _
    ⟨"", "", streetFiles⟩
  have hload : loadGraphFiles streetPlatform streetFiles "nodes.csv" "edges.csv" = .ok street := by
    decide +kernel
  obtain ⟨-, hnames⟩ := hgiven _ streetRequest_given
  obtain ⟨hrefused, hanswer⟩ := hnames street 0 1 ⟨hload, rfl, rfl⟩
  have hne : code ≠ kExitHeuristicContract := fun h => by cases (hrefused.mp h).1
  obtain ⟨result, -, -, rfl, -, hplain⟩ := hanswer hne
  have hwalk : Digraph.WalkCost street.HasArc 0 1 (0 + (1 : Binary64)) :=
    Digraph.walkCost_nil.snoc ⟨[⟨1, 1⟩], rfl, List.mem_cons_self⟩
  obtain rfl := (hplain (by decide)).1.mpr ⟨_, by decide +kernel, hwalk⟩
  exact ⟨out, hmain⟩

end RouteEngine
