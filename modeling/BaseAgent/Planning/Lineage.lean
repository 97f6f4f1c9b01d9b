import BaseAgent.Planning.Execution

/-!
# The executions of one Run

A Run is executed, it may suspend, and a suspended Run is executed again from its checkpoint.
`Lineage` is a Run through all of this: the log of what was awaited and answered so far, and
what the execution that is under way has yet to do.  Every await may be answered by anything.

A resume whose answer is refused awaits nothing and puts the checkpoint back, so that the Run
is where it was.
-/

namespace BaseAgent
namespace Runtime

open Async Prog

abbrev RunEntry := Entry Unit RuntimeOp RuntimeOp.Ret

def keptCheckpoint (checkpoint : Option RuntimeCheckpoint) : RuntimeOp → Option RuntimeCheckpoint
  | .saveCheckpoint saved => some saved
  | .deleteCheckpoint _ => none
  | _ => checkpoint

def lastCheckpoint (log : List RunEntry) : Option RuntimeCheckpoint :=
  log.foldl (fun checkpoint e => keptCheckpoint checkpoint e.op) none

inductive Lineage (p : PlanningAgent) (context : RuntimeContext) :
    List RunEntry → RuntimeProg AgentResult → Prop
  | start (fuel : Nat) : Lineage p context [] (p.execute fuel context none none)
  | step {log : List RunEntry} {o : RuntimeOp} {k : o.Ret → RuntimeProg AgentResult}
      (h : Lineage p context log (.call o k)) (r : o.Ret) :
      Lineage p context (log ++ [⟨(), o, r⟩]) (k r)
  | resume {log : List RunEntry} {result : AgentResult} {checkpoint : RuntimeCheckpoint}
      (h : Lineage p context log (.ret result)) (hwaiting : result.status = .waiting)
      (hlast : lastCheckpoint log = some checkpoint) (fuel : Nat) (input : Option String)
      (confirmation : Option ToolConfirmation) :
      Lineage p context log (p.execute fuel checkpoint.restore input confirmation)

/-- What a program awaits, and what the world answers, when it runs alone. -/
def transcript {W α : Type} (exec : (o : RuntimeOp) → W → o.Ret × W) :
    RuntimeProg α → W → List RunEntry
  | .ret _, _ | .raise _, _ => []
  | .call o k, w => ⟨(), o, (exec o w).1⟩ :: transcript exec (k (exec o w).1) (exec o w).2

/-- A Run that is executed alone, in any world, has a lineage. -/
theorem Lineage.alone {W : Type} {exec : (o : RuntimeOp) → W → o.Ret × W} {p : PlanningAgent}
    {context : RuntimeContext} {log : List RunEntry} {q : RuntimeProg AgentResult} {w : W}
    (h : Lineage p context log q) :
    Lineage p context (log ++ transcript exec q w) (.ofExcept (q.eval exec w).1) := by
  induction q generalizing log w with
  | ret result =>
    rw [transcript, List.append_nil]
    exact h
  | raise e =>
    rw [transcript, List.append_nil]
    exact h
  | call o k ih =>
    rw [transcript, List.append_cons]
    exact ih _ (h.step (exec o w).1)

/-- A fresh context has the plan that was given and has not begun. -/
theorem PlanningAgent.createContext_ok {p : PlanningAgent} {prompt : String} {runId : UUID}
    {conversationId : Option UUID} {history : List Message} {skills : List Skill}
    {plan : Option ExecutionPlan} {planning : Bool} {context : RuntimeContext}
    (h : p.createContext prompt runId conversationId history skills plan planning = .ok context) :
    context.plan = plan ∧ context.supervision = {} ∧ context.state = .created ∧
      context.pendingInput = none := by
  unfold createContext at h
  split at h
  · cases h
  · split at h
    · cases h
    · rename_i hprompt _
      unfold Agent.createContext at h
      rw [if_neg hprompt] at h
      cases h
      exact ⟨rfl, rfl, rfl, rfl⟩

theorem PlanningAgent.createContext_runId {p : PlanningAgent} {prompt : String} {runId : UUID}
    {conversationId : Option UUID} {history : List Message} {skills : List Skill}
    {plan : Option ExecutionPlan} {planning : Bool} {context : RuntimeContext}
    (h : p.createContext prompt runId conversationId history skills plan planning = .ok context) :
    context.runId = runId := by
  unfold createContext at h
  split at h
  · cases h
  · rename_i hprompt
    split at h
    · cases h
    · unfold Agent.createContext at h
      rw [if_neg hprompt] at h
      cases h
      rfl

/-- What cannot be executed is refused without an interruption. -/
theorem PlanningAgent.createContext_error {p : PlanningAgent} {prompt : String} {runId : UUID}
    {conversationId : Option UUID} {history : List Message} {skills : List Skill}
    {plan : Option ExecutionPlan} {planning : Bool} {e : RuntimeError}
    (h : p.createContext prompt runId conversationId history skills plan planning = .error e) :
    e ≠ .cancelled := by
  intro hcancelled
  subst hcancelled
  unfold createContext at h
  split at h
  · cases h
  · rename_i hprompt
    split at h
    · cases h
    · unfold Agent.createContext at h
      rw [if_neg hprompt] at h
      cases h

theorem AgentRuntime.buildResult_waiting {c : RuntimeContext} {result : AgentResult}
    (h : buildResult c = .ok result) (hwaiting : result.status = .waiting) :
    c.state = .waiting := by
  unfold buildResult at h
  cases hstate : c.state <;> rw [hstate] at h <;> cases h <;> first | rfl | cases hwaiting

variable {S : Type} {L : Observer RuntimeOp RuntimeOp.Ret S}

/-- What an observer needs to follow a Run from one execution to the next. -/
structure Course.Lifecycle.Resumption {C : Course L} (R : C.Lifecycle) (p : PlanningAgent) where
  last : S → Option RuntimeCheckpoint
  last_next {s o r} : last (L.next s o r) = keptCheckpoint (last s) o
  turns {c s} : R.Entry c s → C.Turns (p.active c) p.agent
  reenter {result s checkpoint} : R.Done result s → result.status = .waiting →
    last s = some checkpoint → R.Entry checkpoint.restore s

namespace Lineage

variable {C : Course L} {R : C.Lifecycle} {p : PlanningAgent} {context : RuntimeContext}
variable {log : List RunEntry} {q : RuntimeProg AgentResult} {s : S}

theorem last_after (M : R.Resumption p) (s : S) (log : List RunEntry) :
    M.last (L.after s log) =
      log.foldl (fun checkpoint e => keptCheckpoint checkpoint e.op) (M.last s) := by
  induction log generalizing s with
  | nil => rfl
  | cons e rest ih =>
    rw [List.foldl_cons, ← M.last_next]
    exact ih (L.next s e.op e.reply)

theorem ends (M : R.Resumption p) (hnone : M.last s = none) (hentry : R.Entry context s)
    (h : Lineage p context log q) (hexpected : L.Expected s log) :
    L.Admitted s log ∧ R.Ends q (L.after s log) := by
  induction h with
  | start fuel => exact ⟨trivial, R.execute_ends (M.turns hentry) fuel none none hentry⟩
  | step h r ih =>
    obtain ⟨hbefore, hreply⟩ := Observer.expected_snoc.mp hexpected
    obtain ⟨hadmitted, hends⟩ := ih hbefore
    refine ⟨Observer.admitted_snoc.mpr ⟨hadmitted, hends.1⟩, ?_⟩
    rw [Observer.after_snoc]
    exact hends.2 r hreply
  | @resume log result checkpoint h hwaiting hlast fuel input confirmation ih =>
    obtain ⟨hadmitted, hdone⟩ := ih hexpected
    have hkept : M.last (L.after s log) = some checkpoint := by
      rw [last_after, hnone]
      exact hlast
    have hreentered := M.reenter hdone hwaiting hkept
    exact ⟨hadmitted, R.execute_ends (M.turns hreentered) fuel input confirmation hreentered⟩

end Lineage

end Runtime
end BaseAgent
