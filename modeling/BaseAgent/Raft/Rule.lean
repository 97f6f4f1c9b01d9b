import BaseAgent.Raft.Course

/-!
# A proof rule for the worker

Most of what a worker does is the same for every property of its waiting Runs: it reads and writes
the spool, asks for messages, claims tasks, sends replies and marks messages completed.  `outer`
are these operations.  What they keep, and what the reply of a message and the move of its task
keep, the worker keeps.  The code is walked here once.
-/

namespace BaseAgent
namespace Raft

open Async Prog RaftWorker

/-- The operations outside the making of a reply and the move of a task. -/
def outer : RaftOp → Prop
  | .edit (.claimed _) | .edit (.replied _) | .edit (.completed _) => True
  | .edit _ | .run .. | .resume .. | .updateTask .. => False
  | .read .cachedReply _ | .read .waitingRun _ | .read .openTask _ => False
  | _ => True

def sending : RaftOp → Prop
  | .read .isReplied _ | .sendMessage .. | .edit (.replied _) | .save => True
  | _ => False

theorem outer_of_sending (o : RaftOp) (h : sending o) : outer o := by
  cases o with
  | edit change => cases change <;> first | exact h.elim | trivial
  | read reader message => cases reader <;> first | exact h.elim | trivial
  | save | sendMessage messageId target content => trivial
  | _ => exact h.elim

section Only

variable (worker : RaftWorker) (message : RaftMessage)

theorem save_outer : save.Only outer := by
  refine ⟨trivial, fun r => ?_⟩
  cases r with
  | ok u => trivial
  | error e => trivial

theorem markCompleted_outer (id : String) : (markCompleted id).Only outer :=
  ⟨trivial, fun _ => save_outer⟩

theorem claim_outer : (worker.claim message).Only outer := by
  have hrecord : ((edit (.claimed message.messageId)).bind fun _ => save.bind fun _ =>
      (.ret true : RaftProg Bool)).Only outer :=
    ⟨trivial, fun _ => save_outer.bind fun _ => trivial⟩
  unfold RaftWorker.claim
  cases message.taskNumber with
  | none => trivial
  | some number =>
    refine ⟨trivial, fun state => ?_⟩
    show (if _ then _ else _ : RaftProg Bool).Only outer
    split
    · trivial
    · split
      · exact hrecord
      · refine ⟨trivial, fun r => ?_⟩
        cases r with
        | ok u => exact hrecord
        | error e =>
          show (if e.isCommand then _ else _ : RaftProg Bool).Only outer
          split <;> trivial

theorem sendReply_sending (cached : CachedReply) : (sendReply message cached).Only sending := by
  refine ⟨trivial, fun state => ?_⟩
  show (if _ then _ else _ : RaftProg Unit).Only sending
  split
  · trivial
  · refine ⟨trivial, fun r => ?_⟩
    cases r with
    | ok u => exact ⟨trivial, fun _ => ⟨trivial, fun r => by cases r <;> trivial⟩⟩
    | error e => trivial

end Only

theorem only_meets {S α : Type} {L : Observer RaftOp RaftOp.Ret S} {A : RaftOp → Prop}
    {F : S → Prop} (hstep : ∀ o s, A o → F s → Allowed L s o fun _ s' => F s') {p : RaftProg α}
    (hp : p.Only A) {s : S} (h : F s) :
    p.Meets L (fun _ s' => F s') (fun _ s' => F s') s := by
  induction p generalizing s with
  | ret a => exact h
  | raise e => exact h
  | call o k ih => exact (hstep o s hp.1 h).call fun r s' hs' => ih r (hp.2 r) hs'

/-- What holds between two messages, `Between`, and what holds while a reply is sent, `Holding`. -/
structure Rule {S : Type} (worker : RaftWorker) (L : Observer RaftOp RaftOp.Ret S) where
  Between : S → Prop
  Holding : RaftMessage → CachedReply → S → Prop
  outer {o s} : outer o → Between s → Allowed L s o fun _ s' => Between s'
  holding {message cached s} : Holding message cached s → Between s
  carry {message cached o s} : sending o → Holding message cached s →
    Allowed L s o fun _ s' => Holding message cached s'
  obtain {message s} : Between s → (worker.obtainReply message).Meets L
    (fun cached s' => Holding message cached s') (fun _ s' => Between s') s
  move {message cached s} : Holding message cached s → (moveTask message cached).Meets L
    (fun _ s' => Between s') (fun _ s' => Between s') s

namespace Rule

variable {S : Type} {worker : RaftWorker} {L : Observer RaftOp RaftOp.Ret S} {R : Rule worker L}
variable {s : S}

abbrev Kept {α : Type} (R : Rule worker L) (p : RaftProg α) (s : S) : Prop :=
  p.Meets L (fun _ s' => R.Between s') (fun _ s' => R.Between s') s

theorem kept_outer {α : Type} {p : RaftProg α} (hp : p.Only Raft.outer) (h : R.Between s) :
    R.Kept p s :=
  only_meets (fun _ _ ho hs => R.outer ho hs) hp h

theorem kept_processMessage (message : RaftMessage) (h : R.Between s) :
    R.Kept (worker.processMessage message) s := by
  have hskip : ∀ s', R.Between s' →
      R.Kept ((markCompleted message.messageId).bind fun _ => (.ret false : RaftProg Bool)) s' :=
    fun s' hs' => (kept_outer (markCompleted_outer _) hs').bind fun _ _ h₁ => h₁
  refine (R.outer (o := .read .shouldHandle message) trivial h).call fun state s₁ h₁ => ?_
  show (if worker.shouldHandle message state then _ else _ : RaftProg Bool).Meets L _ _ s₁
  split
  · refine (kept_outer (claim_outer worker message) h₁).bind fun claimed s₂ h₂ => ?_
    cases claimed with
    | false => exact hskip s₂ h₂
    | true =>
      refine (R.obtain h₂).bind fun cached s₃ h₃ => ?_
      have hsend : (sendReply message cached).Meets L (fun _ s' => R.Holding message cached s')
          (fun _ s' => R.Between s') s₃ :=
        (only_meets (fun _ _ ho hs => R.carry ho hs) (sendReply_sending message cached) h₃).mono
          (fun _ _ hs => hs) fun _ _ hs => R.holding hs
      refine hsend.bind fun _ s₄ h₄ => (R.move h₄).bind fun _ s₅ h₅ => ?_
      exact (kept_outer (markCompleted_outer _) h₅).bind fun _ _ h₆ => h₆
  · exact hskip s₁ h₁

theorem kept_processMessages (messages : List RaftMessage) (handled skipped : Nat)
    (h : R.Between s) : R.Kept (worker.processMessages handled skipped messages) s := by
  induction messages generalizing s handled skipped with
  | nil => exact h
  | cons message rest ih =>
    refine (R.outer (o := .read .isCompleted message) trivial h).call fun state s₁ h₁ => ?_
    show (if message.messageId ∈ state.completedIds then _ else _ : RaftProg (Nat × Nat)).Meets
      L _ _ s₁
    split
    · exact ih handled (skipped + 1) h₁
    · refine (kept_processMessage message h₁).bind fun processed s₂ h₂ => ?_
      cases processed with
      | true => exact ih (handled + 1) skipped h₂
      | false => exact ih handled (skipped + 1) h₂

theorem kept_drain (messages : List RaftMessage) (h : R.Between s) :
    R.Kept (worker.drain messages) s := by
  refine (kept_processMessages messages 0 0 h).bind fun counts s₁ h₁ => ?_
  refine (R.outer (o := .clearSpool) trivial h₁).call fun r s₂ h₂ => ?_
  cases r with
  | ok u => exact h₂
  | error e => exact h₂

theorem kept_runOnce (h : R.Between s) : R.Kept worker.runOnce s := by
  refine (R.outer (o := .readSpool) trivial h).call fun r s₁ h₁ => ?_
  cases r with
  | error e => exact h₁
  | ok spool =>
    cases spool with
    | some raw =>
      show R.Kept ((Prog.ofExcept (parseRaftMessages worker.lib raw)).bind _) s₁
      cases parseRaftMessages worker.lib raw with
      | error e => exact h₁
      | ok messages => exact kept_drain messages h₁
    | none =>
      refine (R.outer (o := .messageCheck) trivial h₁).call fun checked s₂ h₂ => ?_
      cases checked with
      | error e => exact h₂
      | ok raw =>
        show R.Kept (((Prog.ofExcept (parseRaftMessages worker.lib raw)).bind _).bind _) s₂
        cases parseRaftMessages worker.lib raw with
        | error e => exact h₂
        | ok messages =>
          show R.Kept (if messages.isEmpty then _ else _ : RaftProg RaftDrainResult) s₂
          split
          · exact h₂
          · refine (R.outer (o := .writeSpool raw) trivial h₂).call fun written s₃ h₃ => ?_
            cases written with
            | error e => exact h₃
            | ok u => exact kept_drain messages h₃

theorem kept_serve (calls : Nat) (h : R.Between s) : R.Kept (worker.serve calls) s := by
  induction calls generalizing s with
  | zero => exact h
  | succ n ih =>
    refine (kept_runOnce h).attempt.bind fun outcome s' hs' => ih ?_
    cases outcome with
    | ok result => exact hs'
    | error e => exact hs'

end Rule

end Raft
end BaseAgent
