import BaseAgent.Runtime.Termination

/-!
# The budgets of a Run

Under the default supervisor a Run asks the model at most `max_steps` times and invokes
Tools at most `max_tool_calls` times, over all the calls that start, resume and confirm it.
The counters live in the context and travel through checkpoints, so the task that executes a
Run holds its account, and a stored checkpoint covers what was spent before.

The account is exact only while every invocation was counted.  A confirmed call is not
counted again, which is right for the call that waited, and wrong when its function had
already run or when a later call of the batch has the same identifier.
-/

namespace BaseAgent
namespace Runtime

open Async

variable {ι : Type}

def asks (runId : UUID) (e : RuntimeEntry ι) : Bool :=
  match e.op with
  | .complete r _ => r = runId
  | _ => false

def invokes (runId : UUID) (e : RuntimeEntry ι) : Bool :=
  match e.op with
  | .invoke place .. => place.runId = runId
  | _ => false

def Call.approves : Call → Bool
  | confirm _ d => d.decision = .approve
  | _ => false

def Call.continues : Call → Bool
  | resume .. | confirm .. => true
  | _ => false

/-- The steps that keep the account exact: an approval resumes a batch in which no later call
has the identifier of the waiting one, no function of a Tool asks for a confirmation of its
own, and the Conversation store does not fail a task that has claimed a checkpoint. -/
def Frugal (calls : ι → Call) (e : RuntimeEntry ι) : Prop :=
  match e with
  | ⟨i, .claimCheckpoint _, .ok checkpoint⟩ =>
    (calls i).approves = true → ∀ b ∈ checkpoint.supervision.suspendedActionBatch,
      ∀ call ∈ b.remainingCalls, call.id ≠ b.waitingCall.id
  | ⟨_, .invoke .., ⟨.waitForInput _ metadata, _⟩⟩ => isConfirmation metadata = false
  | ⟨i, .finishTurn .., .error failure⟩ => failure = .cancelled ∨ (calls i).continues = false
  | _ => True

instance (calls : ι → Call) (e : RuntimeEntry ι) : Decidable (Frugal calls e) := by
  unfold Frugal
  split <;> infer_instance

/-- What the task that executes a Run has spent on it.  It owns the Run until it leaves a
checkpoint for the next task. -/
structure Account where
  runId : UUID
  owner : Bool := true
  asked : Nat
  invoked : Nat

/-- The counters of a context cover what was spent and are within the profile's limits. -/
structure Within (agent : Agent) (c : RuntimeContext) (n m : Nat) : Prop where
  asked : n ≤ c.stepCount
  steps : c.stepCount ≤ agent.profile.maxSteps
  invoked : m ≤ c.toolCallCount
  toolCalls : c.toolCallCount ≤ agent.profile.maxToolCalls

/-- An approved batch has its first call counted already, and its other calls are not taken
for it. -/
def Reserved (c : RuntimeContext) (m : Nat) : Prop :=
  (∀ b d, c.supervision.suspendedActionBatch = some b →
    c.supervision.toolConfirmationDecision = some d → d.decision = .approve →
      m + 1 ≤ c.toolCallCount ∧ ∀ call ∈ b.remainingCalls, call.id ≠ b.waitingCall.id) ∧
  (c.supervision.suspendedActionBatch = none → c.supervision.toolConfirmationDecision = none)

def Unconfirmed (k : Option (String × ToolConfirmation)) (calls : List ToolCall) : Prop :=
  ∀ id d, k = some (id, d) → ∀ call ∈ calls, call.id ≠ id

/-- What the counters of a context say at each point, when the Run has asked `n` times and
invoked `m` times. -/
def Spent (agent : Agent) (n m : Nat) : Point → RuntimeContext → Prop
  | .head, c => Within agent c n m ∧ Reserved c m
  | .cleared, c =>
    Within agent c n m ∧ Reserved c m ∧
      (c.supervision.suspendedActionBatch = none → c.stepCount < agent.profile.maxSteps)
  | .asking, c => Within agent c (n + 1) m ∧ c.supervision.toolConfirmationDecision = none
  | .batch k calls, c =>
    Within agent c n m ∧ c.supervision.toolConfirmationDecision = none ∧
      (Unconfirmed k calls ∨ ∃ call rest, calls = call :: rest ∧ Unconfirmed k rest ∧
        m + 1 ≤ c.toolCallCount)
  | .ready k _ rest, c =>
    Within agent c (n) (m + 1) ∧ c.supervision.toolConfirmationDecision = none ∧
      Unconfirmed k rest
  | .executed k _ rest result, c =>
    Within agent c n m ∧ c.supervision.toolConfirmationDecision = none ∧ Unconfirmed k rest ∧
      (result.status = .waiting → isConfirmation (waitMetadata result) = true →
        m + 1 ≤ c.toolCallCount)
  | .observed k _ rest, c =>
    Within agent c n m ∧ c.supervision.toolConfirmationDecision = none ∧ Unconfirmed k rest
  | .waiting, c | .suspended, c =>
    Within agent c n m ∧ c.supervision.toolConfirmationDecision = none ∧
      c.supervision.suspendedActionBatch ≠ none ∧
      ∀ pending, c.pendingInput = some pending → isConfirmation pending.metadata = true →
        m + 1 ≤ c.toolCallCount
  | .ended, _ | .closing, _ => True

structure Covered (agent : Agent) (checkpoint : RuntimeCheckpoint) (n m : Nat) : Prop where
  profile : checkpoint.profile = agent.profile
  spent : Spent agent n m .suspended checkpoint.restore

/-- The accounts of a pool: each Run has one owner or one checkpoint that covers what the log
shows, and no Run has spent more than its profile allows. -/
structure Budgeted (agent : Agent) (s : RuntimeWorld) (log : List (RuntimeEntry ι))
    (ghost : ι → Option Account) : Prop where
  keyed : s.Keyed
  single : ∀ i j a b, ghost i = some a → ghost j = some b → a.owner = true → b.owner = true →
    a.runId = b.runId → i = j
  stored : ∀ i a, ghost i = some a → s.runs a.runId ≠ none
  claimed : ∀ i a, ghost i = some a → a.owner = true → s.checkpoints a.runId = none
  asked : ∀ i a, ghost i = some a → a.owner = true → log.countP (asks a.runId) = a.asked
  invoked : ∀ i a, ghost i = some a → a.owner = true →
    log.countP (invokes a.runId) = a.invoked
  covered : ∀ r checkpoint, s.checkpoints r = some checkpoint →
    checkpoint.runId = r ∧ s.runs r ≠ none ∧
      Covered agent checkpoint (log.countP (asks r)) (log.countP (invokes r))
  fresh : ∀ r, s.runs r = none → log.countP (asks r) = 0 ∧ log.countP (invokes r) = 0
  steps : ∀ r, log.countP (asks r) ≤ agent.profile.maxSteps
  toolCalls : ∀ r, log.countP (invokes r) ≤ agent.profile.maxToolCalls

def budgetOutline (env : RuntimeEnv) (agent : Agent) (calls : ι → Call) :
    Outline ι RuntimeOp RuntimeOp.Ret RuntimeWorld (Option Account) where
  Inv := Budgeted agent
  Rely s _ _ i o := Frugal calls ⟨i, o, (env.exec o s).1⟩

namespace Budgeted

variable {agent : Agent} {s s' : RuntimeWorld} {log : List (RuntimeEntry ι)}
variable {ghost : ι → Option Account} {env : RuntimeEnv}

def frugalOp : RuntimeOp → Prop
  | .complete .. | .invoke .. | .saveCheckpoint _ => False
  | _ => True

theorem countP_frugal (log : List (RuntimeEntry ι)) {o : RuntimeOp} (ho : frugalOp o) (i : ι)
    (r : o.Ret) (runId : UUID) :
    (log ++ [(⟨i, o, r⟩ : RuntimeEntry ι)]).countP (asks runId) = log.countP (asks runId) ∧
      (log ++ [(⟨i, o, r⟩ : RuntimeEntry ι)]).countP (invokes runId) =
        log.countP (invokes runId) := by
  have hasks : asks runId (⟨i, o, r⟩ : RuntimeEntry ι) = false := by
    cases o <;> first | rfl | exact ho.elim
  have hinvokes : invokes runId (⟨i, o, r⟩ : RuntimeEntry ι) = false := by
    cases o <;> first | rfl | exact ho.elim
  simp [List.countP_append, hasks, hinvokes]

theorem still (h : Budgeted agent s log ghost) {o : RuntimeOp} (ho : frugalOp o) (i : ι) :
    Budgeted agent (env.exec o s).2 (log ++ [⟨i, o, (env.exec o s).1⟩]) ghost := by
  have hsave : ∀ checkpoint, o ≠ .saveCheckpoint checkpoint := by
    rintro checkpoint rfl
    exact ho
  have hasks := fun runId => (countP_frugal log ho i (env.exec o s).1 runId).1
  have hinvokes := fun runId => (countP_frugal log ho i (env.exec o s).1 runId).2
  have hnone : ∀ r, s.checkpoints r = none → (env.exec o s).2.checkpoints r = none := by
    intro r hr
    cases hc : (env.exec o s).2.checkpoints r with
    | none => rfl
    | some checkpoint =>
      rw [RuntimeEnv.exec_checkpoints hsave hc] at hr
      cases hr
  exact
    { keyed := RuntimeEnv.exec_keyed h.keyed
      single := h.single
      stored := fun i a hi => RuntimeEnv.exec_runs (h.stored i a hi)
      claimed := fun i a hi ho => hnone _ (h.claimed i a hi ho)
      asked := fun i a hi ho => by rw [hasks]; exact h.asked i a hi ho
      invoked := fun i a hi ho => by rw [hinvokes]; exact h.invoked i a hi ho
      covered := fun r checkpoint hr => by
        have hold := h.covered r checkpoint (RuntimeEnv.exec_checkpoints hsave hr)
        rw [hasks, hinvokes]
        exact ⟨hold.1, RuntimeEnv.exec_runs hold.2.1, hold.2.2⟩
      fresh := fun r hr => by
        rw [hasks, hinvokes]
        refine h.fresh r ?_
        by_contra hne
        exact RuntimeEnv.exec_runs hne hr
      steps := fun r => by rw [hasks]; exact h.steps r
      toolCalls := fun r => by rw [hinvokes]; exact h.toolCalls r }

variable [DecidableEq ι] {i : ι}

theorem update_cases {g g' : Option Account} {j : ι} (h : Function.update ghost i g j = g') :
    (j = i ∧ g = g') ∨ (j ≠ i ∧ ghost j = g') := by
  by_cases hji : j = i
  · subst hji
    rw [Function.update_self] at h
    exact .inl ⟨rfl, h⟩
  · rw [Function.update_of_ne hji] at h
    exact .inr ⟨hji, h⟩

theorem spend (h : Budgeted agent s log ghost) {a a' : Account} (hi : ghost i = some a)
    (howns : a.owner = true) (hid : a'.runId = a.runId) {e : RuntimeEntry ι}
    (hruns : s'.runs = s.runs) (hcheckpoints : s'.checkpoints = s.checkpoints)
    (hasks : ∀ r, (log ++ [e]).countP (asks r) =
      if r = a.runId then a'.asked else log.countP (asks r))
    (hinvokes : ∀ r, (log ++ [e]).countP (invokes r) =
      if r = a.runId then a'.invoked else log.countP (invokes r))
    (hsteps : a'.asked ≤ agent.profile.maxSteps)
    (htools : a'.invoked ≤ agent.profile.maxToolCalls) :
    Budgeted agent s' (log ++ [e]) (Function.update ghost i (some a')) := by
  -- every owner other than `i` owns another Run
  have howner : ∀ j b, Function.update ghost i (some a') j = some b →
      (j = i ∧ b = a') ∨ (ghost j = some b ∧ (b.owner = true → b.runId ≠ a.runId)) := by
    intro j b hj
    cases update_cases hj with
    | inl hnew => exact .inl ⟨hnew.1, (Option.some.inj hnew.2).symm⟩
    | inr hold =>
      exact .inr ⟨hold.2, fun hb heq => hold.1 (h.single j i b a hold.2 hi hb howns heq)⟩
  have hruns' : ∀ j b, Function.update ghost i (some a') j = some b →
      s'.runs b.runId ≠ none ∧ (b.owner = true → s'.checkpoints b.runId = none) := by
    intro j b hj
    rw [hruns, hcheckpoints]
    obtain ⟨-, rfl⟩ | ⟨hj, -⟩ := howner j b hj
    · rw [hid]
      exact ⟨h.stored i a hi, fun _ => h.claimed i a hi howns⟩
    · exact ⟨h.stored j b hj, h.claimed j b hj⟩
  exact
    { keyed := by
        intro r run hr
        rw [hruns] at hr
        exact h.keyed r run hr
      single := by
        intro j k b c hj hk hob hoc hbc
        obtain ⟨rfl, rfl⟩ | ⟨hj, hb⟩ := howner j b hj <;>
          obtain ⟨rfl, rfl⟩ | ⟨hk, hc⟩ := howner k c hk
        · rfl
        · exact absurd (hbc.symm.trans hid) (hc hoc)
        · exact absurd (hbc.trans hid) (hb hob)
        · exact h.single j k b c hj hk hob hoc hbc
      stored := fun j b hj => (hruns' j b hj).1
      claimed := fun j b hj => (hruns' j b hj).2
      asked := by
        intro j b hj hob
        rw [hasks]
        obtain ⟨-, rfl⟩ | ⟨hj, hb⟩ := howner j b hj
        · rw [if_pos hid]
        · rw [if_neg (hb hob)]
          exact h.asked j b hj hob
      invoked := by
        intro j b hj hob
        rw [hinvokes]
        obtain ⟨-, rfl⟩ | ⟨hj, hb⟩ := howner j b hj
        · rw [if_pos hid]
        · rw [if_neg (hb hob)]
          exact h.invoked j b hj hob
      covered := by
        intro r checkpoint hr
        rw [hcheckpoints] at hr
        have hne : r ≠ a.runId := by
          rintro rfl
          rw [h.claimed i a hi howns] at hr
          cases hr
        rw [hasks, hinvokes, if_neg hne, if_neg hne, hruns]
        exact h.covered r checkpoint hr
      fresh := by
        intro r hr
        rw [hruns] at hr
        have hne : r ≠ a.runId := by
          rintro rfl
          exact h.stored i a hi hr
        rw [hasks, hinvokes, if_neg hne, if_neg hne]
        exact h.fresh r hr
      steps := by
        intro r
        rw [hasks]
        split
        · exact hsteps
        · exact h.steps r
      toolCalls := by
        intro r
        rw [hinvokes]
        split
        · exact htools
        · exact h.toolCalls r }

theorem own (h : Budgeted agent s log ghost) {a : Account} (hruns : s.runs a.runId ≠ none)
    (hcheckpoints : s.checkpoints a.runId = none)
    (hfree : ∀ j b, ghost j = some b → b.owner = true → b.runId ≠ a.runId)
    (hasked : log.countP (asks a.runId) = a.asked)
    (hinvoked : log.countP (invokes a.runId) = a.invoked) :
    Budgeted agent s log (Function.update ghost i (some a)) := by
  have howner : ∀ j b, Function.update ghost i (some a) j = some b →
      (j = i ∧ b = a) ∨ ghost j = some b := by
    intro j b hj
    cases update_cases hj with
    | inl hnew => exact .inl ⟨hnew.1, (Option.some.inj hnew.2).symm⟩
    | inr hold => exact .inr hold.2
  exact
    { h with
      single := by
        intro j k b c hj hk hob hoc hbc
        obtain ⟨rfl, rfl⟩ | hj' := howner j b hj <;>
          obtain ⟨hki, rfl⟩ | hk' := howner k c hk
        · exact hki.symm
        · exact absurd hbc.symm (hfree k c hk' hoc)
        · exact absurd hbc (hfree j b hj' hob)
        · exact h.single j k b c hj' hk' hob hoc hbc
      stored := by
        intro j b hj
        obtain ⟨-, rfl⟩ | hj := howner j b hj
        · exact hruns
        · exact h.stored j b hj
      claimed := by
        intro j b hj hob
        obtain ⟨-, rfl⟩ | hj := howner j b hj
        · exact hcheckpoints
        · exact h.claimed j b hj hob
      asked := by
        intro j b hj hob
        obtain ⟨-, rfl⟩ | hj := howner j b hj
        · exact hasked
        · exact h.asked j b hj hob
      invoked := by
        intro j b hj hob
        obtain ⟨-, rfl⟩ | hj := howner j b hj
        · exact hinvoked
        · exact h.invoked j b hj hob }

theorem disown (h : Budgeted agent s log ghost) {a : Account} (hi : ghost i = some a) :
    Budgeted agent s log (Function.update ghost i (some { a with owner := false })) := by
  have howner : ∀ j b, Function.update ghost i (some { a with owner := false }) j = some b →
      b.owner = true → ghost j = some b := by
    intro j b hj hob
    cases update_cases hj with
    | inl hnew =>
      rw [← Option.some.inj hnew.2] at hob
      cases hob
    | inr hold => exact hold.2
  exact
    { h with
      single := fun j k b c hj hk hob hoc =>
        h.single j k b c (howner j b hj hob) (howner k c hk hoc) hob hoc
      stored := by
        intro j b hj
        cases update_cases hj with
        | inl hnew =>
          rw [← Option.some.inj hnew.2]
          exact h.stored i a hi
        | inr hold => exact h.stored j b hold.2
      claimed := fun j b hj hob => h.claimed j b (howner j b hj hob) hob
      asked := fun j b hj hob => h.asked j b (howner j b hj hob) hob
      invoked := fun j b hj hob => h.invoked j b (howner j b hj hob) hob }

/-- The owner of a Run leaves a checkpoint that covers what was spent. -/
theorem store (h : Budgeted agent s log ghost) {a : Account} (hi : ghost i = some a)
    (howns : a.owner = true) {checkpoint : RuntimeCheckpoint} (hid : checkpoint.runId = a.runId)
    (hcovered : Covered agent checkpoint a.asked a.invoked) :
    Budgeted agent (env.exec (.saveCheckpoint checkpoint) s).2
      (log ++ [⟨i, .saveCheckpoint checkpoint, (env.exec (.saveCheckpoint checkpoint) s).1⟩])
      (Function.update ghost i (some { a with owner := false })) := by
  have hcount : ∀ r,
      (log ++ [(⟨i, .saveCheckpoint checkpoint, (env.exec (.saveCheckpoint checkpoint) s).1⟩ :
        RuntimeEntry ι)]).countP (asks r) = log.countP (asks r) ∧
      (log ++ [(⟨i, .saveCheckpoint checkpoint, (env.exec (.saveCheckpoint checkpoint) s).1⟩ :
        RuntimeEntry ι)]).countP (invokes r) = log.countP (invokes r) := by
    intro r
    simp [List.countP_append, asks, invokes]
  have hset : ∀ r, (env.exec (.saveCheckpoint checkpoint) s).2.checkpoints r =
      if r = checkpoint.runId then some checkpoint else s.checkpoints r := by
    intro r
    simp only [RuntimeEnv.exec, RuntimeEnv.reply, RuntimeWorld.setCheckpoint]
    by_cases hr : r = checkpoint.runId
    · subst hr
      simp
    · simp [hr]
  -- whoever still owns a Run owns another one
  have hother : ∀ j b, Function.update ghost i (some { a with owner := false }) j = some b →
      b.owner = true → b.runId ≠ checkpoint.runId := by
    intro j b hj hob
    rw [hid]
    cases update_cases hj with
    | inl hnew =>
      rw [← Option.some.inj hnew.2] at hob
      cases hob
    | inr hold => exact fun heq => hold.1 (h.single j i b a hold.2 hi hob howns heq)
  have hfree := h.disown hi
  exact
    { keyed := h.keyed
      single := hfree.single
      stored := hfree.stored
      claimed := by
        intro j b hj hob
        rw [hset, if_neg (hother j b hj hob)]
        exact hfree.claimed j b hj hob
      asked := by
        intro j b hj hob
        rw [(hcount _).1]
        exact hfree.asked j b hj hob
      invoked := by
        intro j b hj hob
        rw [(hcount _).2]
        exact hfree.invoked j b hj hob
      covered := by
        intro r found hr
        rw [hset] at hr
        rw [(hcount _).1, (hcount _).2]
        by_cases hne : r = checkpoint.runId
        · rw [if_pos hne] at hr
          cases hr
          subst hne
          refine ⟨rfl, ?_, ?_⟩
          · rw [hid]
            exact h.stored i a hi
          · rw [hid, h.asked i a hi howns, h.invoked i a hi howns]
            exact hcovered
        · rw [if_neg hne] at hr
          exact h.covered r found hr
      fresh := by
        intro r hr
        rw [(hcount _).1, (hcount _).2]
        exact h.fresh r hr
      steps := by
        intro r
        rw [(hcount _).1]
        exact h.steps r
      toolCalls := by
        intro r
        rw [(hcount _).2]
        exact h.toolCalls r }

end Budgeted

/-! ## The script -/

section Script

variable {env : RuntimeEnv} {agent : Agent} {calls : ι → Call} {i : ι}

def Point.live : Point → Bool
  | .ended | .closing => false
  | _ => true

/-- The Run of the context is stored.  Before the end the task owns it, and the context covers
what was spent. -/
def Held (agent : Agent) (p : Point) (c : RuntimeContext) (g : Option Account) : Prop :=
  ∃ a, g = some a ∧ a.runId = c.runId ∧
    (p.live = true → a.owner = true ∧ c.profile = agent.profile) ∧
      Spent agent a.asked a.invoked p c

theorem Held.similar {p : Point} {a b : RuntimeContext} {g : Option Account}
    (hs : a.Similar b) (h : Held agent p a g) : Held agent p b g := by
  obtain ⟨account, hg, hid, hprofile, hspent⟩ := h
  refine ⟨account, hg, hid.trans hs.runId.symm,
    fun hp => ⟨(hprofile hp).1, hs.profile.trans (hprofile hp).2⟩, ?_⟩
  have hwithin : ∀ n m, Within agent a n m → Within agent b n m := fun n m h =>
    ⟨by rw [hs.stepCount]; exact h.asked, by rw [hs.stepCount]; exact h.steps,
      by rw [hs.toolCallCount]; exact h.invoked, by rw [hs.toolCallCount]; exact h.toolCalls⟩
  have hiff : ∀ n m, Within agent b n m = Within agent a n m := fun n m => by
    refine propext ⟨fun h => ?_, hwithin n m⟩
    exact ⟨by rw [← hs.stepCount]; exact h.asked, by rw [← hs.stepCount]; exact h.steps,
      by rw [← hs.toolCallCount]; exact h.invoked, by rw [← hs.toolCallCount]; exact h.toolCalls⟩
  have hfields : Spent agent account.asked account.invoked p b =
      Spent agent account.asked account.invoked p a := by
    cases p <;>
      simp only [Spent, Reserved, hiff, hs.batch, hs.decision, hs.pendingInput, hs.stepCount,
        hs.toolCallCount]
  rw [hfields]
  exact hspent

variable [DecidableEq ι]

theorem budget_still {o : RuntimeOp} {g : Option Account} {P : o.Ret → Option Account → Prop}
    (ho : Budgeted.frugalOp o)
    (hP : ∀ s log ghost, ghost i = g → Budgeted agent s log ghost →
      Frugal calls (⟨i, o, (env.exec o s).1⟩ : RuntimeEntry ι) → P (env.exec o s).1 g) :
    (budgetOutline env agent calls).Step env.exec i o g P := by
  intro s log ghost hg hI hR
  refine ⟨g, trivial, ?_, hP s log ghost hg hI hR⟩
  rw [← hg, Function.update_eq_self]
  exact hI.still ho i

theorem budget_complete {runId : UUID} {request : ModelRequest} {a : Account}
    {P : (RuntimeOp.complete runId request).Ret → Option Account → Prop}
    (howns : a.owner = true) (hid : a.runId = runId)
    (hle : a.asked + 1 ≤ agent.profile.maxSteps)
    (hP : ∀ r, P r (some { a with asked := a.asked + 1 })) :
    (budgetOutline env agent calls).Step env.exec i (.complete runId request) (some a) P := by
  intro s log ghost hg hI _
  subst hid
  refine ⟨some { a with asked := a.asked + 1 }, trivial, ?_, hP _⟩
  refine hI.spend hg howns (e := ⟨i, .complete a.runId request, _⟩)
    (show ({ a with asked := a.asked + 1 } : Account).runId = a.runId from rfl) rfl rfl
    (fun r => ?_) (fun r => ?_) hle ?_
  · by_cases hr : r = a.runId
    · subst hr
      simp [List.countP_append, asks, hI.asked i a hg howns]
    · have hr' : a.runId ≠ r := fun heq => hr heq.symm
      simp [List.countP_append, asks, hr, hr']
  · by_cases hr : r = a.runId
    · subst hr
      simp [List.countP_append, invokes, hI.invoked i a hg howns]
    · simp [List.countP_append, invokes, hr]
  · have := hI.toolCalls a.runId
    rw [hI.invoked i a hg howns] at this
    exact this

theorem budget_invoke {place : Occurrence} {tool : Tool} {call : ToolCall}
    {arguments : List (String × JsonValue)} {confirmation : Option ToolConfirmation} {a : Account}
    {P : (RuntimeOp.invoke place tool call arguments confirmation).Ret → Option Account → Prop}
    (howns : a.owner = true) (hid : a.runId = place.runId)
    (hle : a.invoked + 1 ≤ agent.profile.maxToolCalls)
    (hP : ∀ r : Invocation,
      Frugal calls (⟨i, .invoke place tool call arguments confirmation, r⟩ : RuntimeEntry ι) →
      P r (some { a with invoked := a.invoked + 1 })) :
    (budgetOutline env agent calls).Step env.exec i
      (.invoke place tool call arguments confirmation) (some a) P := by
  intro s log ghost hg hI hR
  refine ⟨some { a with invoked := a.invoked + 1 }, trivial, ?_, hP _ hR⟩
  refine hI.spend hg howns (e := ⟨i, .invoke place tool call arguments confirmation, _⟩)
    (show ({ a with invoked := a.invoked + 1 } : Account).runId = a.runId from rfl) rfl rfl
    (fun r => ?_) (fun r => ?_) ?_ hle
  · by_cases hr : r = a.runId
    · subst hr
      simp [List.countP_append, asks, hI.asked i a hg howns]
    · simp [List.countP_append, asks, hr]
  · by_cases hr : r = a.runId
    · subst hr
      simp [List.countP_append, invokes, hid, ← hI.invoked i a hg howns]
    · have hr' : place.runId ≠ r := fun heq => hr (heq.symm.trans hid.symm)
      simp [List.countP_append, invokes, hr, hr']
  · have := hI.steps a.runId
    rw [hI.asked i a hg howns] at this
    exact this

theorem Within.mono {c : RuntimeContext} {n n' m m' : Nat} (h : Within agent c n m)
    (hn : n' ≤ n) (hm : m' ≤ m) : Within agent c n' m' :=
  ⟨hn.trans h.asked, h.steps, hm.trans h.invoked, h.toolCalls⟩

theorem Unconfirmed.none (calls : List ToolCall) : Unconfirmed none calls := by
  intro id d hk
  cases hk

theorem Unconfirmed.tail {k : Option (String × ToolConfirmation)} {call : ToolCall}
    {rest : List ToolCall} (h : Unconfirmed k (call :: rest)) : Unconfirmed k rest :=
  fun id d hk other hother => h id d hk other (List.mem_cons_of_mem _ hother)

theorem confirmationFor_some {k : Option (String × ToolConfirmation)} {call : ToolCall}
    {d : ToolConfirmation} (h : ModelToolStrategy.confirmationFor k call = some d) :
    k = some (call.id, d) := by
  unfold ModelToolStrategy.confirmationFor at h
  split at h
  · rename_i id d'
    split at h
    · rename_i heq
      cases h
      rw [heq]
    · cases h
  · cases h

theorem waitMetadata_waitingResult (call : ToolCall) (prompt : String)
    (metadata : List (String × JsonValue)) :
    waitMetadata (ToolExecutor.waitingResult call prompt metadata) = metadata := by
  simp [waitMetadata, ToolExecutor.waitingResult, JsonValue.lookup]

/-- What a task with the checkpoint `origin` holds when `execute` raises an exception: a fresh
Run, or all that the checkpoint covers. -/
def Refunded (agent : Agent) (origin : Option RuntimeCheckpoint) (g : Option Account) : Prop :=
  match origin with
  | none => True
  | some checkpoint => ∃ a, g = some a ∧ a.owner = true ∧ a.runId = checkpoint.runId ∧
      Covered agent checkpoint a.asked a.invoked

/-- Every execution under the default supervisor keeps to its budget. -/
def budgetScript (env : RuntimeEnv) (agent : Agent) (calls : ι → Call) (i : ι)
    (origin : Option RuntimeCheckpoint) {dumps : List (String × JsonValue) → String}
    (hsupervisor : env.supervisor = defaultSupervisor dumps)
    (horigin : (calls i).continues = false → origin = none) :
    Script env (budgetOutline env agent calls) agent i origin where
  At := Held agent
  Idle _ := origin = none
  Over _ := True
  Out e g := e ≠ .cancelled → Refunded agent origin g
  Final _ := True
  Read r run := run.id = r
  Missing := False
  limit := none
  similar hs h := h.similar hs
  leave := by
    intro p a b g _ h hrun _ _
    obtain ⟨account, hg, hid, -, -⟩ := h
    exact ⟨account, hg, hid.trans hrun.symm, fun hp => (by cases hp), trivial⟩
  bounded hb := by cases hb
  quiet {o g} ho := budget_still (by cases o <;> trivial) fun _ _ _ _ _ _ => rfl
  get := by
    intro p c g h
    obtain ⟨account, hg, hid, -, -⟩ := h
    refine budget_still trivial fun s log ghost hghost hI _ =>
      ⟨rfl, fun run hr => ?_, fun e he => ?_⟩
    · exact hI.keyed _ run (RuntimeWorld.getRun_ok hr)
    · refine hI.stored i account (hghost.trans hg) ?_
      rw [hid]
      exact RuntimeWorld.getRun_none he
  snapshot := by
    intro p c g run _ h hread
    refine budget_still trivial fun s log ghost hghost hI _ => ⟨h, fun e he => ?_⟩
    obtain ⟨account, hg, hid, -, -⟩ := h
    refine hI.stored i account (hghost.trans hg) ?_
    rw [hid]
    rw [← hread]
    have hnone : s.runs (c.snapshot run).id = none := RuntimeWorld.saveRun_none he
    exact hnone
  lost h := h.elim
  beforeModel := by
    intro c g h
    refine budget_still trivial fun s log ghost _ _ _ => ⟨h, fun d policies hr hd => ?_⟩
    have hanswer : (defaultSupervisor dumps).beforeModel s.steps c = .ok (d, policies) := by
      rw [← hsupervisor]
      exact hr
    obtain ⟨rfl, hsteps⟩ := defaultSupervisor_beforeModel hanswer hd
    obtain ⟨account, hg, hid, hprofile, hwithin, hreserved⟩ := h
    rw [(hprofile rfl).2] at hsteps
    exact ⟨account, hg, hid, hprofile, hwithin, hreserved, fun _ => hsteps⟩
  ask := by
    intro c g h hb
    obtain ⟨account, hg, hid, hprofile, hwithin, hreserved, hsteps⟩ := h
    have hlt := hsteps hb
    refine ⟨account, hg, hid, hprofile, ⟨?_, ?_, hwithin.invoked, hwithin.toolCalls⟩,
      hreserved.2 hb⟩
    · have := hwithin.asked
      show account.asked + 1 ≤ c.stepCount + 1
      omega
    · show c.stepCount + 1 ≤ agent.profile.maxSteps
      omega
  complete := by
    intro c g tools h
    obtain ⟨account, rfl, hid, hprofile, hwithin, hdecision⟩ := h
    refine budget_complete (hprofile rfl).1 hid (hwithin.asked.trans hwithin.steps) fun r => ⟨?_, ?_⟩
    · exact ⟨_, rfl, hid, hprofile, hwithin, hdecision, .inl (Unconfirmed.none _)⟩
    · intro response hr
      exact ⟨_, rfl, hid, hprofile, ⟨hwithin.asked, hwithin.steps, hwithin.invoked,
        hwithin.toolCalls⟩, hdecision, .inl (Unconfirmed.none _)⟩
  resume := by
    intro c b g h hb
    obtain ⟨account, hg, hid, hprofile, hwithin, hreserved, -⟩ := h
    have hwithin' : ∀ c' : RuntimeContext, c'.stepCount = c.stepCount →
        c'.toolCallCount = c.toolCallCount →
        Within agent c' account.asked account.invoked := fun c' hs ht =>
      ⟨hs ▸ hwithin.asked, hs ▸ hwithin.steps, ht ▸ hwithin.invoked, ht ▸ hwithin.toolCalls⟩
    constructor
    · intro d hd happrove
      obtain ⟨hcount, hother⟩ := hreserved.1 b d hb hd happrove
      refine ⟨account, hg, hid, hprofile, hwithin' _ rfl rfl, rfl,
        .inr ⟨b.waitingCall, b.remainingCalls, rfl, ?_, hcount⟩⟩
      intro id d' hk call hcall
      cases hk
      exact hother call hcall
    · intro _
      exact ⟨account, hg, hid, hprofile, hwithin' _ rfl rfl, rfl, .inl (Unconfirmed.none _)⟩
  finish := by
    intro k c g h hb
    obtain ⟨account, hg, hid, hprofile, hwithin, hdecision, -⟩ := h
    refine ⟨account, hg, hid, hprofile, hwithin, ?_, fun _ => hdecision⟩
    intro b d hb' hd
    rw [hb] at hb'
    cases hb'
  beforeTool := by
    intro k call rest c g h hb hk
    refine budget_still trivial fun s log ghost _ _ _ => ⟨h, fun d policies hr => ?_⟩
    have hanswer : (defaultSupervisor dumps).beforeTool s.steps c call = .ok (d, policies) := by
      rw [← hsupervisor]
      exact hr
    obtain ⟨account, hg, hid, hprofile, hwithin, hdecision, hconfirmed⟩ := h
    have hcount : d.stops = false → c.toolCallCount + 1 ≤ agent.profile.maxToolCalls := by
      intro hd
      have := defaultSupervisor_beforeTool hanswer hd
      rw [(hprofile rfl).2] at this
      exact this
    have hcounted : d.stops = false → Within agent
        { c with toolCallCount := c.toolCallCount + 1 } account.asked (account.invoked + 1) :=
      fun hd => ⟨hwithin.asked, hwithin.steps, Nat.succ_le_succ hwithin.invoked, hcount hd⟩
    constructor
    · rintro rfl
      refine ⟨account, hg, hid, hprofile, hcounted rfl, hdecision, ?_⟩
      obtain hconfirmed | ⟨call', rest', heq, hconfirmed, -⟩ := hconfirmed
      · exact hconfirmed.tail
      · cases heq
        exact hconfirmed
    · rintro reason message rfl
      have hw := (hcounted rfl).mono (Nat.le_refl _) (Nat.le_succ _)
      refine ⟨account, hg, hid, hprofile, ⟨hw.asked, hw.steps, hw.invoked, hw.toolCalls⟩, ?_,
        fun _ => hdecision⟩
      intro b d hb' _
      have hb' : c.supervision.suspendedActionBatch = some b := hb'
      rw [hb] at hb'
      cases hb'
  confirmed := by
    intro k call rest c g d h hk
    obtain ⟨account, hg, hid, hprofile, hwithin, hdecision, hconfirmed⟩ := h
    have hk := confirmationFor_some hk
    obtain hconfirmed | ⟨call', rest', heq, hconfirmed, hcount⟩ := hconfirmed
    · exact absurd rfl (hconfirmed call.id d hk call (by simp))
    · cases heq
      exact ⟨account, hg, hid, hprofile,
        ⟨hwithin.asked, hwithin.steps, hcount, hwithin.toolCalls⟩, hdecision, hconfirmed⟩
  refuse := by
    intro k call rest c g result h hr
    obtain ⟨account, hg, hid, hprofile, hwithin, hdecision, hconfirmed⟩ := h
    exact ⟨account, hg, hid, hprofile, hwithin.mono (Nat.le_refl _) (Nat.le_succ _), hdecision,
      hconfirmed, fun hw => absurd hw hr⟩
  request := by
    intro k call rest c g tool h _ _ _
    obtain ⟨account, hg, hid, hprofile, hwithin, hdecision, hconfirmed⟩ := h
    exact ⟨account, hg, hid, hprofile, hwithin.mono (Nat.le_refl _) (Nat.le_succ _), hdecision,
      hconfirmed, fun _ _ => hwithin.invoked⟩
  invoke := by
    intro k call rest c g tool arguments h _ _
    obtain ⟨account, rfl, hid, hprofile, hwithin, hdecision, hconfirmed⟩ := h
    refine budget_invoke (hprofile rfl).1 hid (hwithin.invoked.trans hwithin.toolCalls) fun r hR => ⟨?_, ?_⟩
    · intro result hr
      exact ⟨_, rfl, hid, hprofile, hwithin, hdecision, hconfirmed, fun hw => absurd hw hr⟩
    · intro prompt metadata hr
      refine ⟨_, rfl, hid, hprofile, hwithin, hdecision, hconfirmed, fun _ hkind => ?_⟩
      rw [waitMetadata_waitingResult] at hkind
      obtain ⟨outcome, acquired⟩ := r
      cases hr
      have hplain : isConfirmation metadata = false := hR
      rw [hplain] at hkind
      cases hkind
  suspend := by
    intro k call rest result prompt c g observations response h hr hprompt
    obtain ⟨account, hg, hid, hprofile, hwithin, hdecision, -, hkind⟩ := h
    refine ⟨account, hg, hid, hprofile, ⟨hwithin.asked, hwithin.steps, hwithin.invoked,
      hwithin.toolCalls⟩, hdecision, by simp, ?_⟩
    intro pending hpending
    cases hpending
    exact hkind hr
  announce h := budget_still trivial fun _ _ _ _ _ _ => h
  observe := by
    intro k call rest result c g h _
    obtain ⟨account, hg, hid, hprofile, hwithin, hdecision, hconfirmed, -⟩ := h
    exact ⟨account, hg, hid, hprofile, ⟨hwithin.asked, hwithin.steps, hwithin.invoked,
      hwithin.toolCalls⟩, hdecision, hconfirmed⟩
  afterTool := by
    intro k call rest result c g h hb
    refine budget_still trivial fun s log ghost _ _ _ => ⟨h, fun d policies hr => ?_⟩
    obtain ⟨account, hg, hid, hprofile, hwithin, hdecision, hconfirmed⟩ := h
    constructor
    · intro _
      exact ⟨account, hg, hid, hprofile, hwithin, hdecision, .inl hconfirmed⟩
    · intro reason message _
      refine ⟨account, hg, hid, hprofile, ⟨hwithin.asked, hwithin.steps, hwithin.invoked,
        hwithin.toolCalls⟩, ?_, fun _ => hdecision⟩
      intro b d hb' _
      have hb' : c.supervision.suspendedActionBatch = some b := hb'
      rw [hb] at hb'
      cases hb'
  aexit _ h := budget_still trivial fun _ _ _ _ _ _ => ⟨h, fun _ hne => absurd rfl hne⟩
  park := by
    intro c g checkpoint h hcheckpoint
    obtain ⟨account, rfl, hid, howns, hspent⟩ := h
    obtain ⟨-, hrestore⟩ := RuntimeCheckpoint.fromContext_ok hcheckpoint
    have hcovered : Covered agent checkpoint account.asked account.invoked := by
      refine ⟨(congrArg RuntimeContext.profile hrestore).trans (howns rfl).2, ?_⟩
      rw [hrestore]
      obtain ⟨hwithin, hrest⟩ := hspent
      exact ⟨⟨hwithin.asked, hwithin.steps, hwithin.invoked, hwithin.toolCalls⟩, hrest⟩
    have hrun : checkpoint.runId = account.runId :=
      (congrArg RuntimeContext.runId hrestore).trans hid.symm
    intro s log ghost hg hI _
    exact ⟨_, trivial, hI.store hg (howns rfl).1 hrun hcovered, _, rfl, hid,
      fun hp => (by cases hp), trivial⟩
  clear := by
    intro c g h
    obtain ⟨account, hg, hid, -, -⟩ := h
    exact budget_still trivial fun _ _ _ _ _ _ =>
      ⟨account, hg, hid, fun hp => (by cases hp), trivial⟩
  turn := by
    intro c g conversationId h
    refine budget_still trivial fun s log ghost _ _ hR => ⟨h, fun e he hne => ?_⟩
    rw [he] at hR
    cases hR with
    | inl hcancelled =>
      rw [hcancelled] at hne
      exact absurd rfl hne
    | inr hcontinues =>
      rw [horigin hcontinues]
      trivial
  close _ _ := budget_still trivial fun _ _ _ _ _ _ => trivial
  over_final _ := trivial
  over_out _ := fun hne => absurd rfl hne
  idle_final _ := trivial
  idle_out := by
    intro e g h _
    subst h
    trivial
  final_turn _ := budget_still trivial fun _ _ _ _ _ _ => trivial

/-! ## The calls -/

theorem Covered.answer {checkpoint : RuntimeCheckpoint} {a : Account} {input : Option String}
    {confirmation : Option ToolConfirmation} {c : RuntimeContext}
    (h : Covered agent checkpoint a.asked a.invoked) (howns : a.owner = true)
    (hid : a.runId = checkpoint.runId)
    (hdistinct : ∀ d, confirmation = some d → d.decision = .approve →
      ∀ b ∈ checkpoint.supervision.suspendedActionBatch,
        ∀ call ∈ b.remainingCalls, call.id ≠ b.waitingCall.id)
    (hc : AgentRuntime.answer agent checkpoint.restore input confirmation = .ok c) :
    Held agent .head (Script.resumedContext c) (some a) := by
  obtain ⟨hprofile, hwithin, hdecision, hbatch, hpending⟩ := h
  obtain ⟨pending, hp, hdecided | hreceived⟩ := AgentRuntime.answer_ok agent hc
  · obtain ⟨hkind, d, hd, -, rfl⟩ := hdecided
    refine ⟨a, rfl, hid, fun _ => ⟨howns, hprofile⟩,
      ⟨hwithin.asked, hwithin.steps, hwithin.invoked, hwithin.toolCalls⟩, ?_,
      fun hnone => absurd hnone hbatch⟩
    intro b d' hb hd' happrove
    have hsame : d = d' := Option.some.inj hd'
    subst hsame
    exact ⟨hpending pending hp hkind, hdistinct d hd happrove b hb⟩
  · obtain ⟨-, -, text, rfl⟩ := hreceived
    refine ⟨a, rfl, hid, fun _ => ⟨howns, hprofile⟩,
      ⟨hwithin.asked, hwithin.steps, hwithin.invoked, hwithin.toolCalls⟩, ?_, fun _ => hdecision⟩
    intro b d hb hd
    have hd : checkpoint.restore.supervision.toolConfirmationDecision = some d := hd
    rw [hdecision] at hd
    cases hd

theorem budget_bookkeeping {α : Type} {p : RuntimeProg α} {g : Option Account}
    (h : p.Only bookkeeping) :
    (budgetOutline env agent calls).Safe env.exec i (fun _ _ => True) (fun _ _ => True) p g := by
  refine Outline.Safe.of_only (F := fun _ => True) h (fun o _ ho _ => ?_) trivial
  exact budget_still (by cases o <;> trivial) fun _ _ _ _ _ _ => trivial

variable {dumps : List (String × JsonValue) → String}
variable (hsupervisor : env.supervisor = defaultSupervisor dumps)

theorem budget_creates {runId : UUID} {c : RuntimeContext} (hc : Script.Fresh agent runId c) :
    (budgetScript env agent calls i none hsupervisor fun _ => rfl).Creates c none := by
  intro s log ghost hg hI _
  have hstill : Budgeted agent (env.exec (.createRun (AgentRuntime.newRun c)) s).2
      (log ++ [⟨i, .createRun (AgentRuntime.newRun c),
        (env.exec (.createRun (AgentRuntime.newRun c)) s).1⟩]) ghost :=
    hI.still (o := .createRun (AgentRuntime.newRun c)) trivial i
  cases hrun : s.runs c.runId with
  | some run =>
    refine ⟨none, trivial, ?_, fun hok => ?_, fun _ _ _ => trivial⟩
    · rw [← hg, Function.update_eq_self]
      exact hstill
    · simp [RuntimeEnv.exec, RuntimeEnv.reply, RuntimeWorld.createRun, AgentRuntime.newRun,
        hrun] at hok
  | none =>
    have hfresh := hI.fresh c.runId hrun
    refine ⟨some { runId := c.runId, asked := 0, invoked := 0 }, trivial, ?_, fun _ => ?_,
      fun _ _ _ => trivial⟩
    · refine hstill.own ?_ ?_ ?_ ?_ ?_
      · simp [RuntimeEnv.exec, RuntimeEnv.reply, RuntimeWorld.createRun, AgentRuntime.newRun, hrun]
      · cases hcheckpoint : s.checkpoints c.runId with
        | some checkpoint => exact absurd hrun (hI.covered _ checkpoint hcheckpoint).2.1
        | none =>
          simp [RuntimeEnv.exec, RuntimeEnv.reply, RuntimeWorld.createRun, AgentRuntime.newRun,
            hrun, hcheckpoint]
      · intro j b hj _ heq
        exact hI.stored j b hj (by rw [heq]; exact hrun)
      · exact (Budgeted.countP_frugal _ (o := .createRun (AgentRuntime.newRun c)) trivial _ _ _).1.trans hfresh.1
      · exact (Budgeted.countP_frugal _ (o := .createRun (AgentRuntime.newRun c)) trivial _ _ _).2.trans hfresh.2
    · obtain ⟨prompt, conversationId, turns, skills, hc⟩ := hc
      unfold Agent.createContext at hc
      split at hc
      · cases hc
      · cases hc
        refine ⟨_, rfl, rfl, fun _ => ⟨rfl, rfl⟩,
          ⟨Nat.le_refl _, Nat.zero_le _, Nat.le_refl _, Nat.zero_le _⟩, ?_, fun _ => rfl⟩
        intro b d hb
        cases hb

theorem budget_claim {runId : UUID} {g : Option Account}
    {P : (RuntimeOp.claimCheckpoint runId).Ret → Option Account → Prop}
    (herror : ∀ e, P (.error e) g)
    (hok : ∀ checkpoint a, a.owner = true → a.runId = checkpoint.runId →
      Covered agent checkpoint a.asked a.invoked →
      Frugal calls (⟨i, .claimCheckpoint runId, .ok checkpoint⟩ : RuntimeEntry ι) →
      P (.ok checkpoint) (some a)) :
    (budgetOutline env agent calls).Step env.exec i (.claimCheckpoint runId) g P := by
  intro s log ghost hg hI hR
  have hstill : Budgeted agent (env.exec (.claimCheckpoint runId) s).2
      (log ++ [⟨i, .claimCheckpoint runId, (env.exec (.claimCheckpoint runId) s).1⟩]) ghost :=
    hI.still (o := .claimCheckpoint runId) trivial i
  cases hcheckpoint : s.checkpoints runId with
  | none =>
    have hreply : (env.exec (.claimCheckpoint runId) s).1 =
        .error (RuntimeWorld.checkpointNotFound runId " or was already claimed") := by
      rw [RuntimeEnv.exec_claimCheckpoint_none hcheckpoint]
    refine ⟨g, trivial, ?_, ?_⟩
    · rw [← hg, Function.update_eq_self]
      exact hstill
    · rw [hreply]
      exact herror _
  | some checkpoint =>
    have hreply : (env.exec (.claimCheckpoint runId) s).1 = .ok checkpoint := by
      rw [RuntimeEnv.exec_claimCheckpoint_some hcheckpoint]
    have hleft : (env.exec (.claimCheckpoint runId) s).2.checkpoints runId = none := by
      rw [RuntimeEnv.exec_claimCheckpoint_some hcheckpoint]
      simp [RuntimeWorld.setCheckpoint]
    obtain ⟨hid, hstored, hcovered⟩ := hI.covered runId checkpoint hcheckpoint
    have hR : Frugal calls (⟨i, .claimCheckpoint runId,
        (env.exec (.claimCheckpoint runId) s).1⟩ : RuntimeEntry ι) := hR
    refine ⟨some ⟨runId, true, log.countP (asks runId), log.countP (invokes runId)⟩, trivial,
      ?_, ?_⟩
    · refine hstill.own (RuntimeEnv.exec_runs hstored) hleft ?_ ?_ ?_
      · intro j b hj hob heq
        have hnone := hI.claimed j b hj hob
        rw [heq] at hnone
        have hsome : s.checkpoints runId = none := hnone
        rw [hcheckpoint] at hsome
        cases hsome
      · exact (Budgeted.countP_frugal _ (o := .claimCheckpoint runId) trivial _ _ _).1
      · exact (Budgeted.countP_frugal _ (o := .claimCheckpoint runId) trivial _ _ _).2
    · rw [hreply] at hR ⊢
      exact hok checkpoint _ rfl hid.symm hcovered hR

include hsupervisor in
theorem budget_continueWaiting {fuel : Nat} {runId : UUID} {input : Option String}
    {confirmation : Option ToolConfirmation} {g : Option Account}
    (hcontinues : (calls i).continues = true)
    (happroves : ∀ d, confirmation = some d → d.decision = .approve →
      (calls i).approves = true) :
    (budgetOutline env agent calls).Safe env.exec i (fun _ _ => True) (fun _ _ => True)
      (agent.continueWaiting fuel runId input confirmation) g := by
  have hquiet : ∀ o, Budgeted.frugalOp o →
      (budgetOutline env agent calls).Step env.exec i o g fun _ g' => g' = g :=
    fun o ho => budget_still ho fun _ _ _ _ _ _ => rfl
  have hraise : ∀ e : RuntimeError, e.Ordinary → True := fun _ _ => trivial
  refine Script.safe_continueWaiting _ (hquiet _ trivial) (hquiet _ trivial) hraise ?_
  refine budget_claim (fun e => ⟨fun _ _ _ => trivial, fun _ hok => (by cases hok)⟩) ?_
  intro checkpoint a howns hid hcovered hfrugal
  refine ⟨fun _ _ _ => trivial, fun claimed hclaimed => ?_⟩
  cases hclaimed
  have horigin : (calls i).continues = false → some checkpoint = none := by
    intro hfalse
    rw [hcontinues] at hfalse
    cases hfalse
  have hrefunded : Refunded agent (some checkpoint) (some a) := ⟨a, rfl, howns, hid, hcovered⟩
  refine (Script.safe_restored
    (S := budgetScript env agent calls i (some checkpoint) hsupervisor horigin)
    (fun _ _ => budget_bookkeeping (settleTaskInterruption_only runId))
    (fun c hc => hcovered.answer howns hid (fun d hd happrove => hfrugal (happroves d hd happrove))
      hc)
    (fun _ _ _ => hrefunded) fun e g' hout he => ?_).mono
      (fun _ _ _ => trivial) fun _ _ _ => trivial
  obtain ⟨a', rfl, howns', hid', hcovered'⟩ := hout he.1
  intro s log ghost hg hI _
  exact ⟨_, trivial, hI.store hg howns' hid'.symm hcovered', trivial⟩

include hsupervisor in
theorem budget_task {fuel : Nat} :
    (budgetOutline env agent calls).Safe env.exec i (fun _ _ => True) (fun _ _ => True)
      ((calls i).task agent fuel) none := by
  cases hcall : calls i with
  | run prompt runId conversationId skills =>
    refine Outline.Safe.bind (Q := fun _ _ => True) ?_ fun _ _ _ => trivial
    exact (Script.safe_run (S := budgetScript env agent calls i none hsupervisor fun _ => rfl)
      (fun _ _ => budget_bookkeeping (settleTaskInterruption_only runId)) rfl
      (fun c hc => budget_creates hsupervisor hc) fun _ _ _ _ => trivial).mono
        (fun _ _ _ => trivial) fun _ _ _ => trivial
  | resume runId input =>
    refine Outline.Safe.bind (Q := fun _ _ => True) ?_ fun _ _ _ => trivial
    unfold Agent.resume
    split
    · trivial
    · exact budget_continueWaiting hsupervisor (by rw [hcall]; rfl) fun d hd => (by cases hd)
  | confirm runId confirmation =>
    refine Outline.Safe.bind (budget_continueWaiting hsupervisor (by rw [hcall]; rfl) ?_)
      fun _ _ _ => trivial
    intro d hd happrove
    cases hd
    rw [hcall]
    simpa [Call.approves] using happrove
  | cancel runId =>
    exact Outline.Safe.bind (budget_bookkeeping (requestCancellation_only runId))
      fun _ _ _ => trivial
  | finalize runId =>
    exact Outline.Safe.bind (budget_bookkeeping (finalizeTaskInterruption_only runId))
      fun _ _ _ => trivial

/-- Along every run of any number of calls on the same stores, no Run asks the model more than
`max_steps` times or invokes Tools more than `max_tool_calls` times, as long as every step is
frugal.  Every task terminates. -/
theorem runs_keep_budgets (env : RuntimeEnv) (agent : Agent) (fuel : Nat) (calls : ι → Call)
    (world : RuntimeWorld) (schedule : List ι) (dumps : List (String × JsonValue) → String)
    (hsupervisor : env.supervisor = defaultSupervisor dumps)
    (hfuel : agent.profile.maxSteps + 2 ≤ fuel) (hruns : ∀ r, world.runs r = none)
    (hcheckpoints : ∀ r, world.checkpoints r = none)
    (hfrugal : ∀ e ∈ ((startCalls agent fuel calls world).run env.exec schedule).log,
      Frugal calls e) :
    (∀ runId,
      ((startCalls agent fuel calls world).run env.exec schedule).log.countP (asks runId) ≤
        agent.profile.maxSteps ∧
      ((startCalls agent fuel calls world).run env.exec schedule).log.countP (invokes runId) ≤
        agent.profile.maxToolCalls) ∧
    ∀ i, ∃ n, (((startCalls agent fuel calls world).run env.exec
        (schedule ++ List.replicate n i)).tasks i).done = true ∧
      ((startCalls agent fuel calls world).run env.exec
        (schedule ++ List.replicate n i)).tasks i ≠ .raise .exhausted := by
  have hnone : ∀ (i : ι) (a : Account), (fun _ : ι => (none : Option Account)) i = some a → False :=
    fun i a h => by cases h
  have hinit : Budgeted agent world [] fun _ : ι => none :=
    { keyed := fun r run hr => by rw [hruns r] at hr; cases hr
      single := fun i _ a _ hi => (hnone i a hi).elim
      stored := fun i a hi => (hnone i a hi).elim
      claimed := fun i a hi => (hnone i a hi).elim
      asked := fun i a hi => (hnone i a hi).elim
      invoked := fun i a hi => (hnone i a hi).elim
      covered := fun r checkpoint hr => by rw [hcheckpoints r] at hr; cases hr
      fresh := fun _ _ => ⟨rfl, rfl⟩
      steps := fun _ => Nat.zero_le _
      toolCalls := fun _ => Nat.zero_le _ }
  have hholds : Outline.Holds env.exec (budgetOutline env agent calls) (fun _ _ _ => True)
      (fun _ _ _ => True) (startCalls agent fuel calls world) fun _ => none :=
    ⟨hinit, fun i => budget_task hsupervisor⟩
  obtain ⟨ghost, hinv, -⟩ := hholds.run_log (fun _ _ _ _ _ he => he) (fun _ _ => trivial) hfrugal
  exact ⟨fun runId => ⟨hinv.steps runId, hinv.toolCalls runId⟩,
    executions_terminate hsupervisor calls world schedule hcheckpoints hfuel⟩

end Script

/-! ## A call that is repeated after an approval -/

/-- A Run of an Agent with the Tools `pay` and `look`, up to its end. -/
def paidRun (response : ModelResponse) (maxToolCalls : Nat) (h : 1 ≤ maxToolCalls) :
    RuntimePool Bool :=
  (startCalls (plainAgent [payTool, { name := "look" }] maxToolCalls h) 12 approvedCalls {}).run
    (onceEnv response).exec (List.replicate 30 false ++ List.replicate 40 true)

def repeatedCall : ModelResponse where
  toolCalls := [⟨"1", "pay", []⟩, ⟨"1", "pay", []⟩]
  valid := .inr (by simp)

set_option maxRecDepth 20000 in
/-- One confirmation, two invocations, and a limit of one. -/
theorem repeated_call_exceeds_budget :
    ¬ ∀ runId, (paidRun repeatedCall 1 (by decide)).log.countP (invokes runId) ≤ 1 := by
  intro h
  exact absurd (h 0) (by decide)

def twoCalls : ModelResponse where
  toolCalls := [⟨"1", "pay", []⟩, ⟨"2", "look", []⟩]
  valid := .inr (by simp)

set_option maxRecDepth 20000 in
/-- Calls with identifiers of their own use up the budget and no more. -/
theorem runs_keep_budgets_spent :
    (paidRun twoCalls 2 (by decide)).log.countP (invokes 0) = 2 ∧
    ∀ runId, (paidRun twoCalls 2 (by decide)).log.countP (invokes runId) ≤ 2 := by
  refine ⟨by decide, fun runId => ?_⟩
  have hkeep := runs_keep_budgets (onceEnv twoCalls)
    (plainAgent [payTool, { name := "look" }] 2 (by decide)) 12 approvedCalls {}
    (List.replicate 30 false ++ List.replicate 40 true) (fun _ => "") rfl (by decide)
    (fun _ => rfl) (fun _ => rfl) (by decide)
  exact (hkeep.1 runId).2

end Runtime
end BaseAgent
