import BaseAgent.Runtime.Protocol

/-!
# What an operation can do to the stores

A checkpoint appears only where it is saved, a Run is never removed, and it is stored under
its own identifier.
-/

namespace BaseAgent
namespace Runtime

namespace RuntimeWorld

/-- Every stored Run is stored under its own identifier. -/
def Keyed (w : RuntimeWorld) : Prop := ∀ r run, w.runs r = some run → run.id = r

/-- Every checkpoint is stored under the identifier of its Run. -/
def Filed (w : RuntimeWorld) : Prop :=
  ∀ r checkpoint, w.checkpoints r = some checkpoint → checkpoint.runId = r

theorem Keyed.update {w : RuntimeWorld} (h : w.Keyed) (run : Run) :
    ({ w with runs := Function.update w.runs run.id (some run) } : RuntimeWorld).Keyed := by
  intro r run' hr
  by_cases hid : r = run.id
  · subst hid
    simp only [Function.update_self, Option.some.injEq] at hr
    rw [← hr]
  · simp only [Function.update_of_ne hid] at hr
    exact h r run' hr

theorem getRun_ok {w : RuntimeWorld} {runId : UUID} {run : Run} (h : w.getRun runId = .ok run) :
    w.runs runId = some run := by
  unfold getRun at h
  split at h
  · rename_i found hfound
    cases h
    exact hfound
  · cases h

theorem getRun_none {w : RuntimeWorld} {runId : UUID} {e : RuntimeError}
    (h : w.getRun runId = .error e) : w.runs runId = none := by
  unfold getRun at h
  split at h
  · cases h
  · assumption

theorem saveRun_none {w : RuntimeWorld} {run : Run} {e : RuntimeError}
    (h : (w.saveRun run).1 = .error e) : w.runs run.id = none := by
  unfold saveRun at h
  split at h
  · assumption
  · cases h

end RuntimeWorld

namespace RuntimeEnv

variable {env : RuntimeEnv} {w : RuntimeWorld} {o : RuntimeOp}

theorem exec_checkpoints (ho : ∀ checkpoint, o ≠ .saveCheckpoint checkpoint) {r : UUID}
    {checkpoint : RuntimeCheckpoint}
    (h : (env.exec o w).2.checkpoints r = some checkpoint) : w.checkpoints r = some checkpoint := by
  have hset : ∀ runId, (w.setCheckpoint runId none).checkpoints r = some checkpoint →
      w.checkpoints r = some checkpoint := by
    intro runId hr
    by_cases heq : r = runId
    · subst heq
      simp [RuntimeWorld.setCheckpoint] at hr
    · simpa [RuntimeWorld.setCheckpoint, Function.update_of_ne heq] using hr
  cases o with
  | saveCheckpoint saved => exact absurd rfl (ho saved)
  | deleteCheckpoint runId => exact hset runId h
  | claimCheckpoint runId =>
    simp only [exec, reply, RuntimeWorld.claimCheckpoint] at h
    split at h
    · exact hset runId h
    · exact h
  | createRun run =>
    simp only [exec, reply, RuntimeWorld.createRun] at h
    split at h <;> exact h
  | saveRun run =>
    simp only [exec, reply, RuntimeWorld.saveRun] at h
    split at h <;> exact h
  | requestCancel runId =>
    simp only [exec, reply, RuntimeWorld.requestCancel] at h
    split at h
    · exact h
    · split at h <;> exact h
  | _ => exact h

theorem exec_filed (h : w.Filed) (o : RuntimeOp) : (env.exec o w).2.Filed := by
  intro r checkpoint hr
  by_cases ho : ∀ saved, o ≠ .saveCheckpoint saved
  · exact h r checkpoint (exec_checkpoints ho hr)
  · push Not at ho
    obtain ⟨saved, rfl⟩ := ho
    simp only [exec, reply, RuntimeWorld.setCheckpoint] at hr
    by_cases hid : r = saved.runId
    · rw [hid, Function.update_self, Option.some.injEq] at hr
      rw [← hr, hid]
    · rw [Function.update_of_ne hid] at hr
      exact h r checkpoint hr

theorem claimCheckpoint_ok {runId : UUID} {checkpoint : RuntimeCheckpoint}
    (h : (env.exec (.claimCheckpoint runId) w).1 = .ok checkpoint) :
    w.checkpoints runId = some checkpoint := by
  simp only [exec, reply, RuntimeWorld.claimCheckpoint] at h
  split at h
  · rename_i found hfound
    cases h
    exact hfound
  · cases h

theorem exec_claimCheckpoint_some {runId : UUID} {checkpoint : RuntimeCheckpoint}
    (h : w.checkpoints runId = some checkpoint) :
    env.exec (.claimCheckpoint runId) w =
      (.ok checkpoint, { w.setCheckpoint runId none with steps := w.steps + 1 }) := by
  simp only [exec, reply, RuntimeWorld.claimCheckpoint, h]

theorem exec_claimCheckpoint_none {runId : UUID} (h : w.checkpoints runId = none) :
    env.exec (.claimCheckpoint runId) w =
      (.error (RuntimeWorld.checkpointNotFound runId " or was already claimed"),
        { w with steps := w.steps + 1 }) := by
  simp only [exec, reply, RuntimeWorld.claimCheckpoint, h]

theorem exec_runs {r : UUID} (h : w.runs r ≠ none) : (env.exec o w).2.runs r ≠ none := by
  have hupdate : ∀ runId (run : Run), Function.update w.runs runId (some run) r ≠ none := by
    intro runId run
    by_cases heq : r = runId
    · subst heq
      simp
    · simpa [Function.update_of_ne heq] using h
  cases o with
  | createRun run =>
    simp only [exec, reply, RuntimeWorld.createRun]
    split
    · exact h
    · exact hupdate _ _
  | saveRun run =>
    simp only [exec, reply, RuntimeWorld.saveRun]
    split
    · exact h
    · exact hupdate _ _
  | requestCancel runId =>
    simp only [exec, reply, RuntimeWorld.requestCancel]
    split
    · exact h
    · split
      · exact h
      · exact hupdate _ _
  | claimCheckpoint runId =>
    simp only [exec, reply, RuntimeWorld.claimCheckpoint]
    split <;> exact h
  | _ => exact h

def Plain : (o : RuntimeOp) → o.Ret → Prop
  | .createRun _, .error e | .getRun _, .error e | .saveRun _, .error e
  | .requestCancel _, .error e | .loadCheckpoint _, .error e | .claimCheckpoint _, .error e =>
    e ≠ .exhausted
  | _, _ => True

theorem exec_plain (o : RuntimeOp) (w : RuntimeWorld) : Plain o (env.exec o w).1 := by
  cases o with
  | createRun run =>
    simp only [exec, reply, RuntimeWorld.createRun]
    split <;> simp [Plain]
  | getRun runId =>
    simp only [exec, reply, RuntimeWorld.getRun]
    split <;> simp [Plain, RuntimeWorld.runNotFound]
  | saveRun run =>
    simp only [exec, reply, RuntimeWorld.saveRun]
    split <;> simp [Plain, RuntimeWorld.runNotFound]
  | requestCancel runId =>
    simp only [exec, reply, RuntimeWorld.requestCancel]
    split
    · simp [Plain, RuntimeWorld.runNotFound]
    · split <;> simp [Plain]
  | loadCheckpoint runId =>
    simp only [exec, reply, RuntimeWorld.loadCheckpoint, orRaise]
    split <;> simp [Plain, RuntimeWorld.checkpointNotFound]
  | claimCheckpoint runId =>
    simp only [exec, reply, RuntimeWorld.claimCheckpoint]
    split <;> simp [Plain, RuntimeWorld.checkpointNotFound]
  | _ => trivial

theorem exec_keyed (h : w.Keyed) : (env.exec o w).2.Keyed := by
  cases o with
  | createRun run =>
    simp only [exec, reply, RuntimeWorld.createRun]
    split
    · exact h
    · exact h.update run
  | saveRun run =>
    simp only [exec, reply, RuntimeWorld.saveRun]
    split
    · exact h
    · rename_i current _
      exact h.update { run with cancelRequested := run.cancelRequested || current.cancelRequested }
  | requestCancel runId =>
    simp only [exec, reply, RuntimeWorld.requestCancel]
    split
    · exact h
    · rename_i run hrun
      split
      · exact h
      · have hid := h runId run hrun
        subst hid
        exact h.update { run with cancelRequested := true }
  | claimCheckpoint runId =>
    simp only [exec, reply, RuntimeWorld.claimCheckpoint]
    split <;> exact h
  | _ => exact h

end RuntimeEnv

end Runtime
end BaseAgent
