import BaseAgent.Planning.Lineage
import BaseAgent.Planning.Steady

/-!
# The Tools that are offered

A request to the model offers Tools, and a response calls some.  `Offered` says that a Tool is
invoked only for a call of the last response, and that the request for it offered the Tool.

The executor does not look at what was offered: it admits every call of an enabled Tool.  The
planning strategy offers no Tools while it has a plan written, reviewed or summed up, so there
`Offered` rests on the model, which is what `Restrained` says.
-/

namespace BaseAgent
namespace Runtime

open Async Prog PlanningStrategy

def offerOf : (o : RuntimeOp) → o.Ret → Option (List String × ModelResponse)
  | .complete _ request, .ok response => some (request.tools, response)
  | _, _ => none

def lastOffer (log : List RunEntry) : Option (List String × ModelResponse) :=
  log.foldl (fun last e => (offerOf e.op e.reply).or last) none

/-- The call is one of a response, with the calls after it in place, and its Tool was offered. -/
def Answers (last : Option (List String × ModelResponse)) (place : Occurrence) (tool : Tool)
    (call : ToolCall) : Prop :=
  ∃ tools response, last = some (tools, response) ∧
    (∃ before after, response.toolCalls = before ++ call :: after ∧
      after.length = place.remaining) ∧
    tool.name = call.name ∧ call.name ∈ tools

/-- A Tool is invoked only for a call of the last response, if it was offered for it. -/
def Offered (log : List RunEntry) : Prop :=
  ∀ i place tool call arguments confirmation,
    (log[i]?).map Entry.op = some (.invoke place tool call arguments confirmation) →
      Answers (lastOffer (log.take i)) place tool call

/-- A response for which no Tool was offered calls none of the enabled ones. -/
def Restrained (enabled : List String) (o : RuntimeOp) (r : o.Ret) : Prop :=
  ∀ response, offerOf o r = some ([], response) →
    ∀ call ∈ response.toolCalls, call.name ∉ enabled

instance (enabled : List String) (o : RuntimeOp) (r : o.Ret) : Decidable (Restrained enabled o r) :=
  match h : offerOf o r with
  | none => .isTrue (by intro response heq; rw [h] at heq; cases heq)
  | some (_ :: _, _) => .isTrue (by intro response heq; rw [h] at heq; cases heq)
  | some ([], response) =>
    decidable_of_iff (∀ call ∈ response.toolCalls, call.name ∉ enabled) (by simp [Restrained, h])

structure Offering where
  offer : Option (List String × ModelResponse) := none
  checkpoint : Option RuntimeCheckpoint := none

namespace Offering

variable (enabled : List String)

def observer : Observer RuntimeOp RuntimeOp.Ret Offering where
  admits s o := ∀ place tool call arguments confirmation,
    o = .invoke place tool call arguments confirmation → Answers s.offer place tool call
  expects _ o r := Restrained enabled o r
  next s o r :=
    { offer := (offerOf o r).or s.offer
      checkpoint := keptCheckpoint s.checkpoint o }

/-- The calls are the last ones of the last response, and those that are enabled were offered. -/
def Stands (s : Offering) (response : ModelResponse) (calls : List ToolCall) : Prop :=
  ∃ tools, s.offer = some (tools, response) ∧ calls <:+ response.toolCalls ∧
    ∀ call ∈ calls, call.name ∈ enabled → call.name ∈ tools

def Suspended (c : RuntimeContext) (s : Offering) : Prop :=
  ∀ batch, c.supervision.suspendedActionBatch = some batch →
    Stands enabled s batch.response (batch.waitingCall :: batch.remainingCalls)

def Extra : Mode → RuntimeContext → Offering → Prop
  | .batch response calls, _, s => Stands enabled s response calls
  | .closed, c, s => c.state = .waiting → ∀ checkpoint, s.checkpoint = some checkpoint →
    checkpoint.restore.enabledToolNames = enabled ∧ checkpoint.restore.Planned ∧
      Suspended enabled checkpoint.restore s
  | _, _, _ => True

structure At (m : Mode) (c : RuntimeContext) (s : Offering) : Prop where
  steady : Steady m c
  names : c.enabledToolNames = enabled
  suspended : Suspended enabled c s
  extra : Extra enabled m c s := by trivial

variable {enabled}
variable {m : Mode} {c : RuntimeContext} {s s' : Offering} {o : RuntimeOp}

theorem Stands.of_offer {response : ModelResponse} {calls : List ToolCall}
    (h : Stands enabled s response calls) (hs : s'.offer = s.offer) :
    Stands enabled s' response calls := by
  obtain ⟨tools, hoffer, hcalls⟩ := h
  exact ⟨tools, hs.trans hoffer, hcalls⟩

theorem Suspended.of_offer (h : Suspended enabled c s) (hs : s'.offer = s.offer) :
    Suspended enabled c s' :=
  fun batch hbatch => (h batch hbatch).of_offer hs

/-- What is known of a place does not depend on more than what was offered and stored. -/
theorem At.of_eq (h : At enabled m c s) (hoffer : s'.offer = s.offer)
    (hcheckpoint : s'.checkpoint = s.checkpoint) : At enabled m c s' := by
  refine ⟨h.steady, h.names, h.suspended.of_offer hoffer, ?_⟩
  have hextra := h.extra
  cases m with
  | batch response calls => exact hextra.of_offer hoffer
  | closed =>
    intro hstate checkpoint hkept
    obtain ⟨hnames, hplanned, hsuspended⟩ := hextra hstate checkpoint (hcheckpoint ▸ hkept)
    exact ⟨hnames, hplanned, hsuspended.of_offer hoffer⟩
  | _ => trivial

/-- An operation that neither asks the model nor invokes a Tool, and leaves the checkpoint. -/
def Quiet : RuntimeOp → Prop
  | .complete .. | .invoke .. | .saveCheckpoint _ | .deleteCheckpoint _ => False
  | _ => True

theorem At.allowed (h : At enabled m c s) (ho : Quiet o) :
    Allowed (observer enabled) s o fun _ s' => At enabled m c s' := by
  refine ⟨fun place tool call arguments confirmation heq => ?_, fun r _ => ?_⟩
  · rw [heq] at ho
    exact ho.elim
  · apply h.of_eq
    · cases o <;> first | rfl | exact ho.elim
    · cases o <;> first | rfl | exact ho.elim

/-! ## The turns -/

theorem Suspended.none (h : c.supervision.suspendedActionBatch = none) : Suspended enabled c s := by
  intro batch hbatch
  rw [h] at hbatch
  cases hbatch

theorem Stands.tail {response : ModelResponse} {call : ToolCall} {calls : List ToolCall}
    (h : Stands enabled s response (call :: calls)) : Stands enabled s response calls := by
  obtain ⟨tools, hoffer, hsuffix, hcalls⟩ := h
  exact ⟨tools, hoffer, (List.suffix_cons call calls).trans hsuffix,
    fun other hmem => hcalls other (List.mem_cons_of_mem call hmem)⟩

def course (enabled : List String) : Course (observer enabled) where
  At := At enabled
  Thrown _ c s := Steady .ended c ∧ c.enabledToolNames = enabled ∧ Suspended enabled c s
  Stops _ := True
  Read _ _ := True
  reason _ _ := trivial
  alike {m a b s} halike h := by
    refine ⟨h.steady.alike halike, halike.enabledToolNames.trans h.names, ?_, ?_⟩
    · intro batch hbatch
      exact h.suspended batch (halike.batch.symm.trans hbatch)
    · have hextra := h.extra
      cases m with
      | closed => exact fun hstate => hextra (halike.state.symm.trans hstate)
      | batch response calls => exact hextra
      | _ => trivial
  tame {m c s o} htame h := by
    apply h.allowed
    cases o <;> trivial
  look h _ := h.allowed (by trivial)
  get {m c s} h := by
    refine (h.allowed (by trivial)).mono fun r s' h' => ⟨h', fun _ _ => trivial, fun e _ => ?_⟩
    exact ⟨h'.steady.ended, h'.names, h'.suspended⟩
  save {m c s run} h _ _ := by
    refine (h.allowed (by trivial)).mono fun r s' h' => ⟨h', fun e _ => ?_⟩
    exact ⟨h'.steady.ended, h'.names, h'.suspended⟩
  stopped h _ _ _ _ := by
    refine (h.allowed (by trivial)).mono fun r s' h' => ?_
    exact ⟨⟨h'.steady, h'.names, h'.suspended, trivial⟩,
      fun e _ => ⟨h'.steady.ended, h'.names, h'.suspended⟩⟩
  running h := h.steady.2
  thrown h _ := ⟨h.steady.ended, h.names, h.suspended⟩
  leave h _ hstatus := ⟨.endedWith _ hstatus, h.names, h.suspended, trivial⟩
  left h := ⟨h.steady, h.names, h.suspended, trivial⟩
  pause h := ⟨h.steady.1, h.names, h.suspended, trivial⟩
  tail h := ⟨h.steady, h.names, h.suspended, h.extra.tail⟩
  pop h hstate hbatch := ⟨⟨h.steady, hstate, rfl⟩, h.names, .none rfl, h.suspended _ hbatch⟩
  invoke := by
    intro response call calls c s tool arguments confirmation n h hmem hname
    refine ⟨fun place tool' call' arguments' confirmation' heq => ?_, fun r _ => ?_⟩
    · cases heq
      obtain ⟨tools, hoffer, ⟨before, hbefore⟩, hcalls⟩ := h.extra
      rw [h.names] at hmem
      exact ⟨tools, response, hoffer, ⟨before, calls, hbefore.symm, rfl⟩, hname,
        hcalls call List.mem_cons_self hmem⟩
    · exact h.of_eq rfl rfl
  hold {response call calls observations c s} h := by
    refine ⟨h.steady.1, h.names, fun batch hbatch => ?_, trivial⟩
    cases hbatch
    exact h.extra
  wait h hstate := ⟨h.steady.wait hstate _, h.names, h.suspended, trivial⟩
  waitingState h := h.steady.2
  waited h := ⟨h.steady.1, h.names, h.suspended, trivial⟩

theorem toolDefinitions_ok {agent : Agent} {names : List String} {tools : List Tool}
    (h : ToolExecutor.require agent names = .ok tools) : tools.map (·.name) = names := by
  induction names generalizing tools with
  | nil =>
    cases h
    rfl
  | cons name rest ih =>
    unfold ToolExecutor.require at h
    cases hfound : ToolExecutor.get agent name with
    | none =>
      rw [hfound] at h
      cases h
    | some tool =>
      rw [hfound] at h
      cases hrest : ToolExecutor.require agent rest with
      | error e =>
        rw [hrest] at h
        cases h
      | ok others =>
        rw [hrest] at h
        cases h
        have hname : tool.name = name := by simpa using List.find?_some hfound
        simp [hname, ih hrest]

theorem modelTool_offers {agent : Agent} {tools : List String}
    (h : ModelToolStrategy.toolDefinitions agent c = .ok tools) : tools = c.enabledToolNames := by
  unfold ModelToolStrategy.toolDefinitions at h
  cases hrequired : ToolExecutor.require agent c.enabledToolNames with
  | error e =>
    rw [hrequired] at h
    cases h
  | ok found =>
    rw [hrequired] at h
    cases h
    exact toolDefinitions_ok hrequired

theorem planning_offers {agent : Agent} {tools : List String}
    (h : PlanningStrategy.toolDefinitions agent c = .ok tools) :
    tools = [] ∨ tools = c.enabledToolNames := by
  unfold PlanningStrategy.toolDefinitions at h
  split at h
  · exact .inl (Except.ok.inj h).symm
  · exact .inl (Except.ok.inj h).symm
  · exact .inl (Except.ok.inj h).symm
  · exact .inr (modelTool_offers h)

theorem ask_allowed {tools : List String} (h : At enabled .rest c s) (hstate : c.state = .running)
    (hbatch : c.supervision.suspendedActionBatch = none)
    (htools : tools = [] ∨ tools = c.enabledToolNames) :
    Allowed (observer enabled) s (.complete c.runId ⟨c.messages, tools⟩) fun r s' =>
      At enabled .rest c s' ∧ ∀ response, r = .ok response →
        At enabled (.batch response response.toolCalls) c s' := by
  refine ⟨fun place tool call arguments confirmation heq => (by cases heq), fun r hr => ?_⟩
  refine ⟨⟨h.steady, h.names, .none hbatch, trivial⟩, fun response heq => ?_⟩
  subst heq
  refine ⟨⟨h.steady, hstate, hbatch⟩, h.names, .none hbatch, ?_⟩
  refine ⟨tools, rfl, List.suffix_refl _, fun call hmem hname => ?_⟩
  cases htools with
  | inr hall =>
    rw [hall, h.names]
    exact hname
  | inl hnone =>
    subst hnone
    exact absurd hname (hr response rfl call hmem)

theorem hookSpec (agent : Agent) : (course enabled).HookSpec (ModelToolStrategy.hooks agent) :=
  .ofModelTool (fun h hstate hbatch htools =>
      ask_allowed h hstate hbatch (.inr (modelTool_offers htools)))
    fun _ h hstate => ⟨h.steady.running hstate rfl rfl rfl, h.names, h.suspended, trivial⟩

theorem planSpec (strategy : PlanningStrategy) (agent : Agent) :
    (course enabled).PlanSpec strategy agent where
  ask h hstate hbatch htools := ask_allowed h hstate hbatch (planning_offers htools)
  assign {m c s plan plan'} hm h hplan _ _ _ := by
    refine ⟨h.steady.withPlan hm hplan, h.names, h.suspended, ?_⟩
    cases hm with
    | inl hm =>
      rw [hm]
      trivial
    | inr hm =>
      rw [hm]
      trivial
  generate h hstate _ _ _ _ := ⟨hstate, h.names, h.suspended, trivial⟩
  begin h _ hphase :=
    ⟨.setPlanning fun hplanning => (by rw [hphase] at hplanning; cases hplanning), h.names,
      h.suspended, trivial⟩
  consistent h := h.steady.consistent
  phase h _ _ hplan := ⟨.setPlanning hplan, h.names, h.suspended, trivial⟩
  finish h _ _ _ :=
    ⟨.setPlanning fun hplanning => (by cases hplanning), h.names, h.suspended, trivial⟩
  completed h hstate _ := ⟨h.steady.running hstate rfl rfl rfl, h.names, h.suspended, trivial⟩
  thrown h _ := ⟨h.steady.ended, h.names, h.suspended⟩
  waitedWith h := ⟨h.steady.1, h.names, h.suspended, trivial⟩
  settle {c s plan plan' run} h _ hplan _ _ _ := by
    have hsteady : Steady .rest (c.withPlan plan') := Steady.withPlan (.inl rfl) h.steady hplan
    have hat : At enabled .rest (c.withPlan plan') s := ⟨hsteady, h.names, h.suspended, trivial⟩
    refine (hat.allowed (by trivial)).mono fun r s' h' => ⟨h', fun e _ => ?_⟩
    exact ⟨h'.steady.ended, h'.names, h'.suspended⟩
  settleGet {c s plan plan'} h _ hplan _ _ := by
    have hsteady : Steady .rest (c.withPlan plan') := Steady.withPlan (.inl rfl) h.steady hplan
    refine (h.allowed (by trivial)).mono fun r s' h' => ⟨h', fun _ _ => trivial, fun e _ => ?_⟩
    exact ⟨hsteady.ended, h'.names, h'.suspended⟩
  settled h _ := ⟨h.steady, h.names, h.suspended, trivial⟩
  blank h _ _ _ := ⟨h.steady.ended, h.names, h.suspended⟩

theorem turns (agent : Agent) (strategy : OrchestrationStrategy) :
    (course enabled).Turns strategy agent := by
  cases strategy with
  | modelTool =>
    exact (hookSpec agent).turns (fun h => ⟨h.steady, h.names, h.suspended, trivial⟩)
      fun h => ⟨h.steady, h.names, h.suspended, trivial⟩
  | planning strategy =>
    exact (planSpec strategy agent).turns
      (fun h hstate => ⟨h.steady.planned hstate, h.names, h.suspended, trivial⟩)
      (fun h _ => ⟨h.steady, h.names, h.suspended, trivial⟩)
      fun h _ => ⟨h.steady.ended, h.names, h.suspended, trivial⟩

/-! ## The executions -/

def lifecycle (enabled : List String) : (course enabled).Lifecycle where
  Entry c s := c.enabledToolNames = enabled ∧ c.Planned ∧ Suspended enabled c s
  Ended _ := True
  Done result s := result.status = .waiting → ∀ checkpoint, s.checkpoint = some checkpoint →
    checkpoint.restore.enabledToolNames = enabled ∧ checkpoint.restore.Planned ∧
      Suspended enabled checkpoint.restore s
  refused _ := trivial
  opens {c s} h _ := by
    have hat : At enabled .rest c s := ⟨h.2.1, h.1, h.2.2, trivial⟩
    refine (hat.allowed (by trivial)).mono fun r s' h' => ?_
    exact ⟨fun _ => h', fun _ _ => trivial⟩
  started h hstate :=
    ⟨h.steady.moved (by rw [hstate]; rfl) rfl rfl rfl, h.names, h.suspended, trivial⟩
  resumes h hstate := ⟨h.2.1.moved (by rw [hstate]; rfl) rfl rfl rfl, h.1, h.2.2, trivial⟩
  finishes h := ⟨h.steady.ended, h.names, h.suspended, trivial⟩
  caught text h _ :=
    ⟨fun _ => ⟨(Steady.endedWith text rfl).ended, h.2.1, h.2.2, trivial⟩,
      fun hstate => ⟨h.1.withError hstate text, h.2.1, h.2.2, trivial⟩⟩
  interrupts {c s} h := by
    have hat : At enabled .ended c s := ⟨h.1, h.2.1, h.2.2, trivial⟩
    refine (hat.allowed (by trivial)).mono fun r s' h' => ⟨?_, fun e _ => h'⟩
    intro run status text _ hstatus
    obtain ⟨hended, herror⟩ := Steady.interrupted hstatus h'.steady text
    exact ⟨fun hterminal => ⟨hended hterminal, h'.names, h'.suspended, trivial⟩,
      fun _ => ⟨herror, h'.names, h'.suspended, trivial⟩⟩
  failed _ := trivial
  ends _ _ := trivial
  checkpoint {c s checkpoint} h hcheckpoint := by
    obtain ⟨-, hrestore⟩ := RuntimeCheckpoint.fromContext_ok hcheckpoint
    refine ⟨fun place tool call arguments confirmation heq => (by cases heq), fun r _ => ?_⟩
    refine ⟨h.steady, h.names, h.suspended, fun hstate kept hkept => ?_⟩
    cases hkept
    rw [hrestore]
    refine ⟨h.names, Steady.planned h.steady fun hrunning => ?_, h.suspended⟩
    rw [hstate] at hrunning
    cases hrunning
  unchecked h hstate :=
    ⟨fun place tool call arguments confirmation heq => (by cases heq), fun r _ =>
      ⟨h.steady, h.names, h.suspended, fun hwaiting => absurd hwaiting hstate⟩⟩
  final {c s run} h _ := by
    have hat : At enabled .closed c s := h
    exact hat.allowed (by trivial)
  done {c s result} h hresult hwaiting checkpoint hkept := by
    have hextra : Extra enabled .closed c s := h.extra
    exact hextra (AgentRuntime.buildResult_waiting hresult hwaiting) checkpoint hkept

def resumption (p : PlanningAgent) : (lifecycle enabled).Resumption p where
  last := checkpoint
  last_next := rfl
  turns _ := turns p.agent _
  reenter {result s checkpoint} h hwaiting hkept := by
    have hdone : result.status = .waiting → ∀ checkpoint, s.checkpoint = some checkpoint →
      checkpoint.restore.enabledToolNames = enabled ∧ checkpoint.restore.Planned ∧
        Suspended enabled checkpoint.restore s := h
    exact hdone hwaiting checkpoint hkept

theorem offer_after (s : Offering) (log : List RunEntry) :
    ((observer enabled).after s log).offer =
      log.foldl (fun last e => (offerOf e.op e.reply).or last) s.offer := by
  induction log generalizing s with
  | nil => rfl
  | cons e rest ih => exact ih ((observer enabled).next s e.op e.reply)

end Offering

/-- In every Run whose model calls no enabled Tool where none was offered, a Tool is invoked
only for a call of the response whose request offered it. -/
theorem offered_lineage {p : PlanningAgent} {prompt : String} {runId : UUID}
    {conversationId : Option UUID} {history : List Message} {skills : List Skill}
    {plan : Option ExecutionPlan} {planning : Bool} {context : RuntimeContext}
    {log : List RunEntry} {q : RuntimeProg AgentResult}
    (hcontext : p.createContext prompt runId conversationId history skills plan planning =
      .ok context)
    (hmodel : ∀ e ∈ log, Restrained context.enabledToolNames e.op e.reply)
    (h : Lineage p context log q) : Offered log := by
  obtain ⟨-, hsupervision, -⟩ := PlanningAgent.createContext_ok hcontext
  have hplanned : context.Planned := by
    intro _ hphase
    rw [RuntimeContext.phase, hsupervision] at hphase
    cases hphase
  have hsuspended : Offering.Suspended context.enabledToolNames context {} := by
    apply Offering.Suspended.none
    rw [hsupervision]
  have hends := h.ends (Offering.resumption p) rfl ⟨rfl, hplanned, hsuspended⟩
    (Observer.expected_of_forall (fun _ => hmodel) _)
  intro i place tool call arguments confirmation hinvoked
  obtain ⟨e, he, hop⟩ := Option.map_eq_some_iff.mp hinvoked
  have hanswers := hends.1.at he place tool call arguments confirmation hop
  rw [Offering.offer_after] at hanswers
  exact hanswers

def bookTool : Tool := { name := "book" }

def bookResponse : ModelResponse where
  toolCalls := [{ id := "call", name := "book" }]
  valid := .inr (by simp)

def requestContext : RuntimeContext where
  runId := 0
  profile := (plainAgent [bookTool]).profile
  messages := [.system "Answer.", .user "Go."]
  enabledToolNames := ["book"]
  planningRequested := true
  inputText := "Go."

/-- What such a Run awaits when the model books instead of writing the plan. -/
def requestLog : List RunEntry :=
  transcript (onceEnv bookResponse).exec
    ((planningAgent [bookTool]).execute 3 requestContext none none) {}

/-- The response for which no Tool was offered books all the same. -/
theorem offered_fails :
    (planningAgent [bookTool]).createContext "Go." 0 none [] [] none true = .ok requestContext ∧
      (∃ q, Lineage (planningAgent [bookTool]) requestContext requestLog q) ∧
      ¬ Offered requestLog := by
  refine ⟨rfl, ⟨_, (Lineage.start 3).alone⟩, fun h => ?_⟩
  have hinvoked : (requestLog[21]?).map Entry.op =
      some (.invoke ⟨0, 1, 0⟩ bookTool { id := "call", name := "book" } [] none) := rfl
  have hoffer : (lastOffer (requestLog.take 21)).map (·.1) = some [] := by decide
  obtain ⟨tools, response, hlast, -, -, hmem⟩ := h 21 _ _ _ _ _ hinvoked
  rw [hlast] at hoffer
  cases hoffer
  cases hmem

/-- What a planned trip awaits when the model books in its first step. -/
def bookingLog : List RunEntry :=
  transcript (onceEnv bookResponse).exec
    ((planningAgent [bookTool]).execute 9 (tripContext [bookTool]) none none) {}

theorem offered_booking :
    ((bookingLog[25]?).map Entry.op =
        some (.invoke ⟨0, 1, 0⟩ bookTool { id := "call", name := "book" } [] none)) ∧
      Offered bookingLog := by
  have hcontext : (planningAgent [bookTool]).createContext "Go." 0 none [] [] (some twoSteps)
      false = .ok (tripContext [bookTool]) := rfl
  have hmodel : ∀ e ∈ bookingLog, Restrained (tripContext [bookTool]).enabledToolNames e.op e.reply := by
    decide
  exact ⟨rfl, offered_lineage hcontext hmodel (Lineage.start 9).alone⟩

end Runtime
end BaseAgent
