import BaseAgent.Planning.Lineage
import BaseAgent.Planning.Steady
import Mathlib.Logic.Relation

/-!
# The plans of a Run

Every plan that a context holds is shown: it is stored with the Run and with its checkpoint,
and the supervisor sees it.  The plans of a Run, in the order in which they are shown, follow
from one another by the replacements of `ExecutionPlan.Replaces`, through all executions of the
Run.  The first of them is the plan that was given, or one that the model generated.
-/

namespace BaseAgent
namespace Runtime

open Async Prog PlanningStrategy Relation

def shownPlan : RuntimeOp → Option ExecutionPlan
  | .saveRun run => run.plan
  | .saveCheckpoint checkpoint => checkpoint.plan
  | .beforeModel context | .beforeTool context .. | .afterTool context .. => context.plan
  | _ => none

def shownPlans (log : List RunEntry) : List ExecutionPlan :=
  log.filterMap fun e => shownPlan e.op

def NewPlan (plan : ExecutionPlan) : Prop :=
  plan.validateGraph = .ok () ∧ plan.status = .created ∧
    ∀ step ∈ plan.steps, step.status = .pending

/-- A plan comes after another one, or after none. -/
def Later (First : ExecutionPlan → Prop) : Option ExecutionPlan → Option ExecutionPlan → Prop
  | none, none => True
  | none, some plan => ∃ first, First first ∧ ReflTransGen ExecutionPlan.Replaces first plan
  | some _, none => False
  | some old, some plan => ReflTransGen ExecutionPlan.Replaces old plan

/-- The last plan that was shown, and the last checkpoint. -/
structure Shown where
  plan : Option ExecutionPlan := none
  checkpoint : Option RuntimeCheckpoint := none

namespace Shown

variable (First : ExecutionPlan → Prop)

def observer : Observer RuntimeOp RuntimeOp.Ret Shown where
  admits s o := ∀ plan, shownPlan o = some plan → Later First s.plan (some plan)
  next s o _ :=
    { plan := (shownPlan o).or s.plan
      checkpoint := keptCheckpoint s.checkpoint o }

def Held (c : RuntimeContext) (s : Shown) : Prop := Later First s.plan c.plan

/-- The checkpoint that an execution stored has the plan of the context. -/
def Stored : Mode → RuntimeContext → Shown → Prop
  | .closed, c, s => c.state = .waiting → ∀ checkpoint, s.checkpoint = some checkpoint →
    checkpoint.plan = c.plan ∧ checkpoint.restore.Planned
  | _, _, _ => True

structure At (m : Mode) (c : RuntimeContext) (s : Shown) : Prop where
  steady : Steady m c
  held : Held First c s
  stored : Stored m c s := by trivial

variable {First}
variable {m : Mode} {c : RuntimeContext} {s : Shown} {o : RuntimeOp}

theorem Held.allowed (h : Held First c s) (ho : shownPlan o = c.plan ∨ shownPlan o = none) :
    Allowed (observer First) s o fun r s' =>
      Held First c s' ∧ s' = (observer First).next s o r := by
  have hheld : Later First s.plan c.plan := h
  refine ⟨fun plan hshown => ?_, fun r _ => ⟨?_, rfl⟩⟩
  · cases ho with
    | inl hplan =>
      rw [← hplan, hshown] at hheld
      exact hheld
    | inr hnone =>
      rw [hnone] at hshown
      cases hshown
  · show Later First ((shownPlan o).or s.plan) c.plan
    cases ho with
    | inr hnone =>
      rw [hnone]
      exact hheld
    | inl hplan =>
      rw [hplan]
      cases hc : c.plan with
      | none =>
        rw [hc] at hheld
        exact hheld
      | some plan => exact ReflTransGen.refl

/-- What is known of a place stays known when the plan of the context is shown and the
checkpoint stays. -/
theorem At.allowed (h : At First m c s) (ho : shownPlan o = c.plan ∨ shownPlan o = none)
    (hkept : ∀ checkpoint, keptCheckpoint checkpoint o = checkpoint) :
    Allowed (observer First) s o fun _ s' => At First m c s' := by
  refine (h.held.allowed ho).mono fun r s' h' => ⟨h.steady, h'.1, ?_⟩
  have hcheckpoint : s'.checkpoint = s.checkpoint := by
    rw [h'.2]
    exact hkept s.checkpoint
  have hstored := h.stored
  cases m with
  | closed =>
    intro hstate
    rw [hcheckpoint]
    exact hstored hstate
  | _ => trivial

theorem Held.replaced {plan plan' : ExecutionPlan} (h : Held First c s)
    (hplan : c.plan = some plan) (hreplaces : plan.Replaces plan') :
    Held First (c.withPlan plan') s := by
  have hheld : Later First s.plan c.plan := h
  show Later First s.plan (some plan')
  rw [hplan] at hheld
  cases hs : s.plan with
  | none =>
    rw [hs] at hheld
    obtain ⟨first, hfirst, hsteps⟩ := hheld
    exact ⟨first, hfirst, hsteps.tail hreplaces⟩
  | some old =>
    rw [hs] at hheld
    exact hheld.tail hreplaces

theorem Held.first {plan : ExecutionPlan} (h : Held First c s) (hplan : c.plan = none)
    (hfirst : First plan) : Held First (c.withPlan plan) s := by
  have hheld : Later First s.plan c.plan := h
  show Later First s.plan (some plan)
  rw [hplan] at hheld
  cases hs : s.plan with
  | none => exact ⟨plan, hfirst, ReflTransGen.refl⟩
  | some old =>
    rw [hs] at hheld
    cases hheld

/-! ## The turns -/

def course (First : ExecutionPlan → Prop) : Course (observer First) where
  At := At First
  Thrown _ c s := Steady .ended c ∧ Held First c s
  Stops _ := True
  Read _ _ := True
  reason _ _ := trivial
  alike {m a b s} halike h := by
    refine ⟨h.steady.alike halike, ?_, ?_⟩
    · show Later First s.plan b.plan
      rw [halike.plan]
      exact h.held
    · have hstored := h.stored
      cases m with
      | closed =>
        intro hstate
        rw [halike.plan]
        exact hstored (halike.state.symm.trans hstate)
      | _ => trivial
  tame {m c s o} htame h := by
    apply h.allowed
    · cases o <;> first
        | exact .inr rfl
        | exact htame.elim
        | exact .inl (congrArg RuntimeContext.plan htame)
    · intro checkpoint
      cases o <;> first | rfl | exact htame.elim
  look h _ := h.allowed (.inl rfl) fun _ => rfl
  get {m c s} h := by
    refine (h.allowed (.inr rfl) fun _ => rfl).mono fun r s' h' => ⟨h', fun _ _ => trivial, ?_⟩
    exact fun e _ => ⟨h'.steady.ended, h'.held⟩
  save {m c s run} h _ _ := by
    refine (h.allowed (.inl rfl) fun _ => rfl).mono fun r s' h' => ⟨h', fun e _ => ?_⟩
    exact ⟨h'.steady.ended, h'.held⟩
  stopped h _ _ _ _ := by
    refine (h.held.allowed (.inl rfl)).mono fun r s' h' => ?_
    exact ⟨{ steady := h.steady, held := h'.1 }, fun e _ => ⟨h.steady.ended, h'.1⟩⟩
  running h := h.steady.2
  thrown h _ := ⟨h.steady.ended, h.held⟩
  leave h _ hstatus := { steady := .endedWith _ hstatus, held := h.held }
  left h := { steady := h.steady, held := h.held }
  pause h := { steady := h.steady.1, held := h.held }
  tail h := { steady := h.steady, held := h.held }
  pop h hstate _ := { steady := ⟨h.steady, hstate, rfl⟩, held := h.held }
  invoke h _ _ := h.allowed (.inr rfl) fun _ => rfl
  hold h := { steady := h.steady.1, held := h.held }
  wait h hstate := { steady := h.steady.wait hstate _, held := h.held }
  waitingState h := h.steady.2
  waited h := { steady := h.steady.1, held := h.held }

theorem ask_allowed {request : ModelRequest} (h : At First .rest c s) (hstate : c.state = .running)
    (hbatch : c.supervision.suspendedActionBatch = none) :
    Allowed (observer First) s (.complete c.runId request) fun r s' =>
      At First .rest c s' ∧ ∀ response, r = .ok response →
        At First (.batch response response.toolCalls) c s' := by
  refine (h.allowed (.inr rfl) fun _ => rfl).mono fun r s' h' => ⟨h', fun response _ => ?_⟩
  exact { steady := ⟨h'.steady, hstate, hbatch⟩, held := h'.held }

theorem hookSpec (agent : Agent) : (course First).HookSpec (ModelToolStrategy.hooks agent) :=
  .ofModelTool (fun h hstate hbatch _ => ask_allowed h hstate hbatch)
    fun _ h hstate => { steady := h.steady.running hstate rfl rfl rfl, held := h.held }

theorem planSpec (hnew : ∀ plan, NewPlan plan → First plan) (strategy : PlanningStrategy)
    (agent : Agent) : (course First).PlanSpec strategy agent where
  ask h hstate hbatch _ := ask_allowed h hstate hbatch
  assign {m c s plan plan'} hm h hplan _ hreplaces _ := by
    refine ⟨h.steady.withPlan hm hplan, h.held.replaced hplan hreplaces, ?_⟩
    cases hm with
    | inl hm =>
      rw [hm]
      trivial
    | inr hm =>
      rw [hm]
      trivial
  generate h hstate hplan hgraph hcreated hpending :=
    { steady := hstate
      held := h.held.first hplan.1 (hnew _ ⟨hgraph, hcreated, hpending⟩) }
  begin h _ hphase :=
    { steady := .setPlanning fun hplanning => by rw [hphase] at hplanning; cases hplanning
      held := h.held }
  consistent h := h.steady.consistent
  phase h _ _ hplan := { steady := .setPlanning hplan, held := h.held }
  finish h _ _ _ :=
    { steady := .setPlanning fun hplanning => by cases hplanning
      held := h.held }
  completed h hstate _ := { steady := h.steady.running hstate rfl rfl rfl, held := h.held }
  thrown h _ := ⟨h.steady.ended, h.held⟩
  waitedWith h := { steady := h.steady.1, held := h.held }
  settle {c s plan plan' run} h _ hplan hreplaces _ _ := by
    have hsteady : Steady .rest (c.withPlan plan') := Steady.withPlan (.inl rfl) h.steady hplan
    refine ((h.held.replaced hplan hreplaces).allowed (.inl rfl)).mono fun r s' h' => ?_
    exact ⟨{ steady := hsteady, held := h'.1 }, fun e _ => ⟨hsteady.ended, h'.1⟩⟩
  settleGet {c s plan plan'} h _ hplan hreplaces _ := by
    have hsteady : Steady .rest (c.withPlan plan') := Steady.withPlan (.inl rfl) h.steady hplan
    refine (h.allowed (.inr rfl) fun _ => rfl).mono fun r s' h' => ⟨h', fun _ _ => trivial, ?_⟩
    exact fun e _ => ⟨hsteady.ended, h'.held.replaced hplan hreplaces⟩
  settled h _ := { steady := h.steady, held := h.held }
  blank h _ _ _ := ⟨h.steady.ended, h.held⟩

theorem turns (hnew : ∀ plan, NewPlan plan → First plan) (agent : Agent)
    (strategy : OrchestrationStrategy) : (course First).Turns strategy agent := by
  cases strategy with
  | modelTool =>
    exact (hookSpec agent).turns (fun h => { steady := h.steady, held := h.held })
      fun h => { steady := h.steady, held := h.held }
  | planning strategy =>
    exact (planSpec hnew strategy agent).turns
      (fun h hstate => { steady := h.steady.planned hstate, held := h.held })
      (fun h _ => { steady := h.steady, held := h.held })
      fun h _ => { steady := h.steady.ended, held := h.held }

/-! ## The executions -/

def lifecycle (First : ExecutionPlan → Prop) : (course First).Lifecycle where
  Entry c s := c.Planned ∧ Held First c s
  Ended _ := True
  Done result s := result.status = .waiting → ∀ checkpoint, s.checkpoint = some checkpoint →
    checkpoint.restore.Planned ∧ Held First checkpoint.restore s
  refused _ := trivial
  opens {c s} h _ := by
    have hat : At First .rest c s := { steady := h.1, held := h.2 }
    refine (hat.allowed (.inr rfl) fun _ => rfl).mono fun r s' h' => ?_
    exact ⟨fun _ => h', fun _ _ => trivial⟩
  started h hstate := { steady := h.steady.moved (by rw [hstate]; rfl) rfl rfl rfl, held := h.held }
  resumes h hstate := { steady := h.1.moved (by rw [hstate]; rfl) rfl rfl rfl, held := h.2 }
  finishes h := { steady := h.steady.ended, held := h.held }
  caught text h _ :=
    ⟨fun _ => { steady := (Steady.endedWith text rfl).ended, held := h.2 },
      fun hstate => { steady := h.1.withError hstate text, held := h.2 }⟩
  interrupts {c s} h := by
    refine (h.2.allowed (.inr rfl)).mono fun r s' h' => ⟨?_, fun e _ => ?_⟩
    · intro run status text _ hstatus
      obtain ⟨hended, herror⟩ := Steady.interrupted hstatus h.1 text
      exact ⟨fun hterminal => { steady := hended hterminal, held := h'.1 },
        fun _ => { steady := herror, held := h'.1 }⟩
    · exact { steady := h.1, held := h'.1 }
  failed _ := trivial
  ends _ _ := trivial
  checkpoint {c s checkpoint} h hcheckpoint := by
    obtain ⟨-, hrestore⟩ := RuntimeCheckpoint.fromContext_ok hcheckpoint
    have hplan : checkpoint.plan = c.plan := congrArg RuntimeContext.plan hrestore
    have hshown : shownPlan (.saveCheckpoint checkpoint) = c.plan := hplan
    refine (h.held.allowed (.inl hshown)).mono fun r s' h' =>
      ⟨h.steady, h'.1, fun hstate kept hkept => ?_⟩
    rw [h'.2] at hkept
    cases hkept
    refine ⟨hplan, ?_⟩
    rw [hrestore]
    refine Steady.planned h.steady fun hrunning => ?_
    rw [hstate] at hrunning
    cases hrunning
  unchecked h hstate :=
    (h.held.allowed (.inr rfl)).mono fun r s' h' =>
      ⟨h.steady, h'.1, fun hwaiting => absurd hwaiting hstate⟩
  final {c s run} h _ := by
    have hat : At First .closed c s := h
    exact hat.allowed (.inl rfl) fun _ => rfl
  done {c s result} h hresult hwaiting checkpoint hkept := by
    have hstored : Stored .closed c s := h.stored
    obtain ⟨hplan, hplanned⟩ :=
      hstored (AgentRuntime.buildResult_waiting hresult hwaiting) checkpoint hkept
    refine ⟨hplanned, ?_⟩
    show Later First s.plan checkpoint.plan
    rw [hplan]
    exact h.held

def resumption (hnew : ∀ plan, NewPlan plan → First plan) (p : PlanningAgent) :
    (lifecycle First).Resumption p where
  last := checkpoint
  last_next := rfl
  turns _ := turns hnew p.agent _
  reenter {result s checkpoint} h hwaiting hkept := by
    have hdone : result.status = .waiting → ∀ checkpoint, s.checkpoint = some checkpoint →
      checkpoint.restore.Planned ∧ Held First checkpoint.restore s := h
    exact hdone hwaiting checkpoint hkept

/-! ## The plans of a log -/

theorem Later.trans {last : Option ExecutionPlan} {plan plan' : ExecutionPlan}
    (h : Later First last (some plan)) (hsteps : ReflTransGen ExecutionPlan.Replaces plan plan') :
    Later First last (some plan') := by
  cases last with
  | none =>
    obtain ⟨first, hfirst, hbefore⟩ := h
    exact ⟨first, hfirst, hbefore.trans hsteps⟩
  | some old => exact ReflTransGen.trans h hsteps

/-- The plans that an admitted log shows follow from one another. -/
theorem shownPlans_admitted {s : Shown} {log : List RunEntry}
    (h : (observer First).Admitted s log) :
    (∀ plan ∈ shownPlans log, Later First s.plan (some plan)) ∧
      (shownPlans log).Pairwise (ReflTransGen ExecutionPlan.Replaces) := by
  induction log generalizing s with
  | nil => exact ⟨fun _ hmem => (by cases hmem), List.Pairwise.nil⟩
  | cons e rest ih =>
    obtain ⟨hadmits, hrest⟩ := h
    obtain ⟨hlater, hpairs⟩ := ih hrest
    cases hshown : shownPlan e.op with
    | none =>
      have hsame : ((observer First).next s e.op e.reply).plan = s.plan := by
        simp [observer, hshown]
      rw [hsame] at hlater
      have hplans : shownPlans (e :: rest) = shownPlans rest := by
        simp [shownPlans, hshown]
      rw [hplans]
      exact ⟨hlater, hpairs⟩
    | some plan =>
      have hnext : ((observer First).next s e.op e.reply).plan = some plan := by
        simp [observer, hshown]
      rw [hnext] at hlater
      have hplans : shownPlans (e :: rest) = plan :: shownPlans rest := by
        simp [shownPlans, hshown]
      rw [hplans]
      refine ⟨fun other hmem => ?_, List.pairwise_cons.mpr ⟨hlater, hpairs⟩⟩
      cases List.mem_cons.mp hmem with
      | inl heq =>
        rw [heq]
        exact hadmits plan hshown
      | inr hmem => exact Later.trans (hadmits plan hshown) (hlater other hmem)

end Shown

section Runs

variable {p : PlanningAgent} {prompt : String} {runId : UUID} {conversationId : Option UUID}
variable {history : List Message} {skills : List Skill} {plan : Option ExecutionPlan}
variable {planning : Bool} {context : RuntimeContext} {log : List RunEntry}
variable {q : RuntimeProg AgentResult}

/-- The plans of a Run follow from one another, and the first one was given or generated. -/
theorem shownPlans_lineage {First : ExecutionPlan → Prop}
    (hcontext : p.createContext prompt runId conversationId history skills plan planning =
      .ok context)
    (hfirst : ∀ given, plan = some given → First given)
    (hnew : ∀ plan, NewPlan plan → First plan) (h : Lineage p context log q) :
    (∀ held ∈ shownPlans log, ∃ first, First first ∧
        ReflTransGen ExecutionPlan.Replaces first held) ∧
      (shownPlans log).Pairwise (ReflTransGen ExecutionPlan.Replaces) := by
  obtain ⟨hplan, hsupervision, -⟩ := PlanningAgent.createContext_ok hcontext
  have hheld : Shown.Held First context {} := by
    show Later First none context.plan
    rw [hplan]
    cases plan with
    | none => trivial
    | some given => exact ⟨given, hfirst given rfl, ReflTransGen.refl⟩
  have hplanned : context.Planned := by
    intro _ hphase
    rw [RuntimeContext.phase, hsupervision] at hphase
    cases hphase
  have hends := h.ends (Shown.resumption hnew p) rfl ⟨hplanned, hheld⟩
    (Observer.expected_of_forall (fun _ _ _ => trivial) _)
  exact Shown.shownPlans_admitted hends.1

/-! ## Safety and history -/

theorem NewPlan.safe {plan : ExecutionPlan} (h : NewPlan plan) : plan.Safe where
  graph := ExecutionPlan.validateGraph_ok.mp h.1
  single := by
    have hnone : plan.steps.countP (·.status.active) = 0 := by
      apply List.countP_eq_zero.mpr
      intro step hmem
      rw [h.2.2 step hmem]
      decide
    omega
  settled := by
    intro step hmem hengaged
    rw [h.2.2 step hmem] at hengaged
    cases hengaged

theorem safe_of_replaced {a b : ExecutionPlan} (h : ReflTransGen ExecutionPlan.Replaces a b)
    (ha : a.Safe) : b.Safe := by
  induction h with
  | refl => exact ha
  | tail _ hreplaces ih => exact hreplaces.safe ih

/-- A later plan of a Run is the same plan, or a newer revision of it. -/
theorem newer_of_replaced {a b : ExecutionPlan} (h : ReflTransGen ExecutionPlan.Replaces a b) :
    b.id = a.id ∧ (b = a ∨ a.revision < b.revision) := by
  induction h with
  | refl => exact ⟨rfl, .inl rfl⟩
  | tail _ hreplaces ih =>
    obtain ⟨hid, hrevision⟩ := hreplaces.newer
    refine ⟨hid.trans ih.1, .inr ?_⟩
    cases ih.2 with
    | inl hsame =>
      rw [← hsame]
      exact hrevision
    | inr holder => omega

/-- Settled steps stay as they are through any number of replacements. -/
theorem kept_of_replaced {a b : ExecutionPlan} (h : ReflTransGen ExecutionPlan.Replaces a b)
    (ha : a.Graph) : b.Graph ∧ a.Kept b := by
  induction h with
  | refl => exact ⟨ha, List.Sublist.refl _⟩
  | tail _ hreplaces ih =>
    exact ⟨hreplaces.graph ih.1, List.Sublist.trans ih.2 (hreplaces.kept ih.1.unique)⟩

/-- Every plan of a Run that starts from a valid new plan, or that has its plan generated,
respects the dependencies, and each replacement is a newer revision of the same plan. -/
theorem shownPlans_safe
    (hcontext : p.createContext prompt runId conversationId history skills plan planning =
      .ok context)
    (hplan : ∀ given, plan = some given → NewPlan given) (h : Lineage p context log q) :
    (∀ held ∈ shownPlans log, held.validateGraph = .ok () ∧ held.Safe) ∧
      (shownPlans log).Pairwise fun earlier later =>
        later.id = earlier.id ∧ (later = earlier ∨ earlier.revision < later.revision) := by
  obtain ⟨hheld, hpairs⟩ := shownPlans_lineage hcontext hplan (fun _ hnew => hnew) h
  refine ⟨fun held hmem => ?_, hpairs.imp newer_of_replaced⟩
  obtain ⟨first, hfirst, hsteps⟩ := hheld held hmem
  have hsafe := safe_of_replaced hsteps hfirst.safe
  exact ⟨ExecutionPlan.validateGraph_ok.mpr hsafe.graph, hsafe⟩

theorem newPlan_twoSteps : NewPlan twoSteps := ⟨by decide, rfl, by decide⟩

theorem createContext_trip :
    (planningAgent []).createContext "Go." 0 none [] [] (some twoSteps) false =
      .ok (tripContext []) := rfl

/-- What the trip awaits when the model is content with each of its steps. -/
def tripLog : List RunEntry :=
  transcript (plainEnv (fun _ => { content := some "Done.", valid := ModelResponse.done_valid })
    fun _ => .value .null).exec ((planningAgent []).execute 9 (tripContext []) none none) {}

theorem lineage_trip :
    ∃ q, Lineage (planningAgent []) (tripContext []) tripLog q := ⟨_, (Lineage.start 9).alone⟩

theorem shownPlans_safe_trip :
    (shownPlans tripLog).map (·.revision) = [1, 1, 2, 2, 2, 3, 3, 4, 4, 4, 5, 5] ∧
      (∀ held ∈ shownPlans tripLog, held.validateGraph = .ok () ∧ held.Safe) ∧
      (shownPlans tripLog).Pairwise fun earlier later =>
        later.id = earlier.id ∧ (later = earlier ∨ earlier.revision < later.revision) := by
  obtain ⟨q, hlineage⟩ := lineage_trip
  refine ⟨by decide, shownPlans_safe createContext_trip (fun given hgiven => ?_) hlineage⟩
  cases hgiven
  exact newPlan_twoSteps

/-- Once a step is settled in a plan of a Run, every later plan of the Run has that same step
under its id, and the settled steps keep their order. -/
theorem shownPlans_kept
    (hcontext : p.createContext prompt runId conversationId history skills plan planning =
      .ok context)
    (hplan : ∀ given, plan = some given → given.validateGraph = .ok ())
    (h : Lineage p context log q) :
    (shownPlans log).Pairwise fun earlier later =>
      (∀ step ∈ earlier.steps, step.status.historical = true →
        later.getStep step.id = .ok step) ∧ earlier.history.Sublist later.history := by
  obtain ⟨hheld, hpairs⟩ := shownPlans_lineage hcontext hplan (fun _ hnew => hnew.1) h
  refine List.Pairwise.imp_of_mem (fun {earlier later} hearlier _ hsteps => ?_) hpairs
  obtain ⟨first, hfirst, hbefore⟩ := hheld earlier hearlier
  have hgraph := (kept_of_replaced hbefore (ExecutionPlan.validateGraph_ok.mp hfirst)).1
  obtain ⟨hlater, hkept⟩ := kept_of_replaced hsteps hgraph
  refine ⟨fun step hmem hsettled => ?_, hkept⟩
  have hhistory : step ∈ later.history :=
    hkept.subset (List.mem_filter.mpr ⟨hmem, hsettled⟩)
  have hfound := ExecutionPlan.find_of_nodup hlater.unique (List.mem_filter.mp hhistory).1
  rw [ExecutionPlan.getStep, hfound]
  rfl

theorem shownPlans_kept_trip :
    (shownPlans tripLog).map (·.history.map (·.id)) =
        [[], [], [], [], [], ["book"], ["book"], ["book"], ["book"], ["book"], ["book", "pack"],
          ["book", "pack"]] ∧
      (shownPlans tripLog).Pairwise fun earlier later =>
        (∀ step ∈ earlier.steps, step.status.historical = true →
          later.getStep step.id = .ok step) ∧ earlier.history.Sublist later.history := by
  obtain ⟨q, hlineage⟩ := lineage_trip
  refine ⟨by decide, shownPlans_kept createContext_trip (fun given hgiven => ?_) hlineage⟩
  cases hgiven
  exact newPlan_twoSteps.1

end Runs

end Runtime
end BaseAgent
