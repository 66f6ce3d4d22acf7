import StagedQuery.Format.Request
import StagedQuery.Proofs.Format.Nesting

/-!
# Saving a plan and loading it again

A file holds a plan or a request for one, and the text of a plan that was made for a request can
be put in a file in its turn. Loading that file gives the same plan, with one exception: the text
of the plan may nest deeper than a reader goes, and then the file is refused
(`StagedQuery.planOfFile_toText_iff`).

The request can be read all the same. A query stands one level deep in a request, and its parts
stand four levels deep in a plan, under two levels more for the border at which the result is
collected. So what decides is whether the trees of the stages fit, and they do if the query leaves
six levels for the plan. A query that leaves fewer may be planned and its plan not be loaded
(`StagedQuery.planOfFile_nestedFilters`).
-/

namespace StagedQuery

open Json

/-! ### Requests as JSON -/

namespace Request

/-- A request as a record. -/
def toJson (request : Request) : Json :=
  ofFields [("plan", request.query.toJson), ("cluster", request.cluster.toJson),
    ("config", ofOption Settings.toJson request.settings)]

/-- The text of a request. -/
def toText (request : Request) : String := request.toJson.render

theorem standsFor (request : Request) : StandsFor ofJson? request.toJson request := by
  obtain ⟨query, cluster, settings?⟩ := request
  have hquery := query.standsFor
  have hcluster := cluster.standsFor
  cases settings? with
  | none =>
    refine .record (by decide) rfl ?_ fun room b => ?_
    · simp [hquery.written, hcluster.written, ofOption, Written.null]
    · simp [hquery.read_iff, hcluster.read_iff, optionalField?, optional?, ofOption,
        Option.bind_eq_some_iff, and_assoc]
  | some settings =>
    have hsettings := settings.standsFor
    have hpresent (value : Json → Option Settings) :
        optional? value settings.toJson = (value settings.toJson).map some := rfl
    refine .record (by decide) rfl ?_ fun room b => ?_
    · simp [hquery.written, hcluster.written, hsettings.written, ofOption]
    · simp [hquery.read_iff, hcluster.read_iff, hsettings.read_iff, optionalField?, hpresent,
        ofOption, Option.bind_eq_some_iff, and_assoc]

/-- The text of a request is read as the request, if it does not nest too deeply. -/
theorem ofText?_toText {request : Request} (h : request.toJson.levels ≤ textRoom) :
    ofText? request.toText = some request := by
  have hread := request.standsFor.readText?_render
  rwa [if_pos h] at hread

/-- The answer to a request is the plan that some planner makes. -/
theorem exists_planner_of_answer (request : Request) {environment : Environment}
    {plan : DispatchPlan} (h : request.answer environment = .ok plan) :
    ∃ planner : Planner, planner.plan request.query request.cluster = .ok plan := by
  have hmade (settings : Settings) (h : (do
      let planner ← Planner.ofSettings settings
      planner.plan request.query request.cluster) = .ok plan) :
      ∃ planner : Planner, planner.plan request.query request.cluster = .ok plan := by
    obtain ⟨planner, -, hplan⟩ := bind_eq_ok.mp h
    exact ⟨planner, hplan⟩
  rw [answer] at h
  split at h
  · exact hmade _ h
  · obtain ⟨settings, -, h⟩ := bind_eq_ok.mp h
    exact hmade settings h

end Request

/-! ### Stages that fit into a text -/

/-- **The stages fit into the text of a plan** that can be read: none of their trees nests deeper
than there is room for below the four levels of the plan. -/
def FitText (stages : List Stage) : Prop :=
  ∀ stage ∈ stages, stage.root.toJson.levels + 4 ≤ textRoom

/-- Nothing but the trees of its stages can keep a plan that was made from being read, and they
fit if the query leaves six levels. -/
theorem Planner.levels_plan_le {planner : Planner} {query : PlanTree} {cluster : Cluster}
    {plan : DispatchPlan} (h : planner.plan query cluster = .ok plan) :
    ∃ stages, toStages query = .ok stages ∧
      (plan.toJson.levels ≤ textRoom ↔ FitText stages) ∧
      (query.toJson.levels + 6 ≤ textRoom → FitText stages) := by
  obtain ⟨joined, hbuilt, hgraph, -⟩ := exists_built h
  refine ⟨query.fragments, hbuilt.fits.toStages_eq_ok.mpr ⟨hbuilt.cuttable, rfl⟩, ?_,
    fun hroom stage hstage => ?_⟩
  · rw [StageGraph.levels_toJson_le (by decide), hgraph]
    constructor
    · intro hfit stage hstage
      obtain ⟨planned, hplanned, rfl⟩ := hbuilt.exists_planned hstage
      exact hfit _ planned hplanned
    · intro hfit id planned hplanned
      exact hfit _ (hbuilt.stage_mem (hbuilt.getElem?_eq_some.mp hplanned).1)
  · have hlevels := PlanTree.levels_fragments_le hstage
    omega

/-! ### Files -/

section

variable {path : String} {environment : Environment} {plan : DispatchPlan}

/-- Loading the text of a plan. -/
theorem planOfFile_toText (plan : DispatchPlan) (path : String) (environment : Environment) :
    planOfFile path (.ok plan.toText) true environment =
      if plan.toJson.levels ≤ textRoom then .ok plan else .error (.undecodable path) := by
  simp only [planOfFile, if_true, DispatchPlan.ofText_toText]
  split_ifs <;> rfl

/-- A plan that was made for a file was made for the query of a request that the file holds. -/
theorem exists_request_of_planOfFile {text : String}
    (h : planOfFile path (.ok text) false environment = .ok plan) :
    ∃ request : Request, Request.ofText? text = some request ∧
      ∃ planner : Planner, planner.plan request.query request.cluster = .ok plan := by
  simp only [planOfFile, Bool.false_eq_true, if_false] at h
  cases hrequest : Request.ofText? text with
  | none =>
    rw [hrequest] at h
    exact nomatch h
  | some request =>
    rw [hrequest] at h
    exact ⟨request, rfl, request.exists_planner_of_answer h⟩

/-- **When a plan that was made for a file can be saved and loaded again.** Loading gives the same
plan if the stages of the query fit into a text that can be read, and otherwise the text is refused
as one that holds no plan. The stages do fit if the query leaves six of the levels that a text may
nest. -/
theorem planOfFile_toText_iff {text : String}
    (h : planOfFile path (.ok text) false environment = .ok plan) (path' : String)
    (environment' : Environment) :
    ∃ (request : Request) (stages : List Stage), Request.ofText? text = some request ∧
      toStages request.query = .ok stages ∧
      (planOfFile path' (.ok plan.toText) true environment' = .ok plan ↔ FitText stages) ∧
      (¬FitText stages →
        planOfFile path' (.ok plan.toText) true environment' = .error (.undecodable path')) ∧
      (request.query.toJson.levels + 6 ≤ textRoom → FitText stages) := by
  obtain ⟨request, hrequest, planner, hplan⟩ := exists_request_of_planOfFile h
  obtain ⟨stages, hcut, hlevels, hroom⟩ := Planner.levels_plan_le hplan
  rw [planOfFile_toText]
  refine ⟨request, stages, hrequest, hcut, ?_, fun hdeep => if_neg (mt hlevels.mp hdeep), hroom⟩
  rw [← hlevels]
  split_ifs with hfit
  · exact iff_of_true rfl hfit
  · exact iff_of_false nofun hfit

/-- A request whose text can be read has the answer that it has. -/
theorem planOfFile_request {request : Request} (h : request.toJson.levels ≤ textRoom) :
    planOfFile path (.ok request.toText) false environment = request.answer environment := by
  simp only [planOfFile, Bool.false_eq_true, if_false, Request.ofText?_toText h]

end

/-- The plan for a small query is loaded again from its text. -/
theorem planOfFile_toText_filteredScan : ∃ plan,
    planOfFile "request.json" (.ok (Request.toText
      ⟨Planner.filteredScan, Planner.oneServer, some .standard⟩)) false {} = .ok plan ∧
    planOfFile "plan.json" (.ok plan.toText) true {} = .ok plan := by
  let request : Request := ⟨Planner.filteredScan, Planner.oneServer, some .standard⟩
  have hrequest : request.toJson.levels ≤ textRoom := by decide +kernel
  have hanswer : (request.answer {}).toOption.isSome = true := by decide +kernel
  obtain ⟨plan, hplan⟩ := Option.isSome_iff_exists.mp hanswer
  have hmade : planOfFile "request.json" (.ok request.toText) false {} = .ok plan :=
    (planOfFile_request hrequest).trans (toOption_eq_some.mp hplan)
  obtain ⟨found, stages, hfound, -, hiff, -, hroom⟩ := planOfFile_toText_iff hmade "plan.json" {}
  obtain rfl : found = request :=
    Option.some.inj (hfound.symm.trans (Request.ofText?_toText hrequest))
  exact ⟨plan, hmade, hiff.mpr (hroom (by decide +kernel))⟩

/-- **A plan that cannot be loaded again.** With fifty-nine filters over a scan, the request can
be read and is answered, and the text of the plan is refused. -/
theorem planOfFile_nestedFilters : ∃ plan,
    planOfFile "request.json" (.ok (Request.toText
      ⟨(PlanTree.filter "c")^[59] (.tableScan "t" []), Planner.oneServer, some .standard⟩))
      false {} = .ok plan ∧
    planOfFile "plan.json" (.ok plan.toText) true {} = .error (.undecodable "plan.json") := by
  let request : Request :=
    ⟨(PlanTree.filter "c")^[59] (.tableScan "t" []), Planner.oneServer, some .standard⟩
  have hrequest : request.toJson.levels ≤ textRoom := by decide +kernel
  have hanswer : (request.answer {}).toOption.any
      (fun plan => !decide (plan.toJson.levels ≤ textRoom)) = true := by decide +kernel
  obtain ⟨plan, hplan, hlevels⟩ := (Option.any_eq_true ..).mp hanswer
  have hdeep : ¬plan.toJson.levels ≤ textRoom := by simpa using hlevels
  refine ⟨plan, (planOfFile_request hrequest).trans (toOption_eq_some.mp hplan), ?_⟩
  rw [planOfFile_toText, if_neg hdeep]

end StagedQuery
