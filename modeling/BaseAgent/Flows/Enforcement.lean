import BaseAgent.Async.Observer
import BaseAgent.Flows.Accounting
import BaseAgent.Flows.Sequential

/-!
# Budgets over a whole Flow

A client makes any calls of the strategy, one after the other, each running alone.  Every transport
is preceded by a budget check of the Run as it then is, an invocation is begun for each call of
`invoke`, and a Flow completes only after a check of what its last Agent used.
-/

namespace BaseAgent
namespace Flows

open Async Prog

/-! ## What a check that passed says -/

/-- Every configured limit on tokens and calls stands in the relation to what it bounds. -/
structure FlowRunState.Spends (relation : Int → Int → Prop) (s : FlowRunState) : Prop where
  inputTokens : ∀ limit ∈ s.budget.maxInputTokens, relation s.usage.inputTokens limit
  outputTokens : ∀ limit ∈ s.budget.maxOutputTokens, relation s.usage.outputTokens limit
  totalTokens : ∀ limit ∈ s.budget.maxTotalTokens, relation s.usage.totalTokens limit
  modelCalls : ∀ limit ∈ s.budget.maxModelCalls, relation s.modelCallCount limit
  toolCalls : ∀ limit ∈ s.budget.maxToolCalls, relation s.toolCallCount limit

section Checks

open FlowBudgetPolicy

variable {s : FlowRunState} {now : Time}

theorem consumption_measures {c : FlowConsumption} (h : consumption s now = .ok c) :
    c.invocations = s.invocations.length ∧ c.inputTokens = s.usage.inputTokens ∧
      c.outputTokens = s.usage.outputTokens ∧ c.totalTokens = s.usage.totalTokens ∧
      c.modelCalls = s.modelCallCount ∧ c.toolCalls = s.toolCallCount := by
  simp only [consumption, Except.bind_ok] at h
  obtain ⟨-, -, -, -, hc⟩ := h
  cases hc
  exact ⟨rfl, rfl, rfl, rfl, rfl, rfl⟩

theorem cumulativeViolation_none {c : FlowConsumption} {inclusive : Bool}
    (hc : consumption s now = .ok c) (h : cumulativeViolation s c inclusive = none) :
    s.Spends fun actual limit => if inclusive then actual < limit else actual ≤ limit := by
  obtain ⟨-, hinput, houtput, htotal, hmodel, htool⟩ := consumption_measures hc
  have hall : ∀ kind limit actual, (kind, limit, actual) ∈ configured s c → ∀ n ∈ limit,
      if inclusive then actual < (n : Int) else actual ≤ (n : Int) := by
    intro kind limit actual hmem n hn
    have hnone := List.findSome?_eq_none_iff.mp h _ hmem
    rw [Option.mem_def] at hn
    simp only [hn] at hnone
    cases inclusive with
    | true =>
      simp only [if_true] at hnone ⊢
      split at hnone
      · cases hnone
      · omega
    | false =>
      simp only [Bool.false_eq_true, if_false] at hnone ⊢
      split at hnone
      · cases hnone
      · omega
  unfold configured at hall
  constructor
  · rw [← hinput]
    exact hall .inputTokens _ _ (by simp)
  · rw [← houtput]
    exact hall .outputTokens _ _ (by simp)
  · rw [← htotal]
    exact hall .totalTokens _ _ (by simp)
  · rw [← hmodel]
    exact hall .modelCalls _ _ (by simp)
  · rw [← htool]
    exact hall .toolCalls _ _ (by simp)

theorem timeoutViolation_ne_none {c : FlowConsumption} : timeoutViolation s c ≠ .ok none := by
  intro h
  simp only [timeoutViolation, Except.bind_ok] at h
  obtain ⟨limit, -, hlimit⟩ := h
  cases hlimit

theorem pastDeadline_false (h : ¬ pastDeadline s now = true) :
    ∀ deadline ∈ s.deadlineAt, now < deadline := by
  intro deadline hdeadline
  rw [Option.mem_def] at hdeadline
  simp only [pastDeadline, hdeadline, decide_eq_true_eq] at h
  exact not_le.mp h

theorem beforeTransport_passed {newInvocation : Bool}
    (h : beforeTransport s now newInvocation = .ok none) :
    (s.Spends (· < ·)) ∧ ∀ deadline ∈ s.deadlineAt, now < deadline := by
  simp only [beforeTransport, Except.bind_ok] at h
  obtain ⟨c, hc, h⟩ := h
  split at h
  · exact absurd h timeoutViolation_ne_none
  · rename_i hdeadline
    split at h
    · cases h
    · have hnone : cumulativeViolation s c true = none := Except.ok.inj h
      have hspends := cumulativeViolation_none hc hnone
      simp only [if_true] at hspends
      exact ⟨hspends, pastDeadline_false hdeadline⟩

theorem afterTransport_passed (h : afterTransport s now = .ok none) :
    (s.Spends (· ≤ ·)) ∧ ∀ deadline ∈ s.deadlineAt, now < deadline := by
  simp only [afterTransport, Except.bind_ok] at h
  obtain ⟨c, hc, h⟩ := h
  split at h
  · exact absurd h timeoutViolation_ne_none
  · rename_i hdeadline
    have hnone : cumulativeViolation s c false = none := Except.ok.inj h
    have hspends := cumulativeViolation_none hc hnone
    simp only [Bool.false_eq_true, if_false] at hspends
    exact ⟨hspends, pastDeadline_false hdeadline⟩

end Checks

/-! ## Calls, one after the other -/

/-- The calls of a client, each awaited before the next. -/
def SequentialFlowStrategy.conduct (st : SequentialFlowStrategy) :
    List FlowCall → FlowProg (List (Except FlowError FlowResult))
  | [] => return []
  | made :: rest => do
    let outcome ← (made.prog st).attempt
    let outcomes ← st.conduct rest
    return outcome :: outcomes

abbrev FlowLog := List (Entry Unit FlowOp FlowOp.Ret)

def invokesFor (runId : UUID) (entry : Entry Unit FlowOp FlowOp.Ret) : Bool :=
  match entry.op with
  | .invoke request _ => request.flowRunId = runId
  | _ => false

/-- The Run at a transport is below every limit, and was before its deadline by the clock that its
check read, `ago` steps before.  The transport is awaited for the time left by the clock read last. -/
def Affords (env : FlowEnv) (w : FlowWorld) (runId : UUID) (ago : Nat) (remaining : Option ℚ) :
    Prop :=
  ∃ s, w.repo.states runId = some s ∧ s.Spends (· < ·) ∧
    (∀ deadline ∈ s.deadlineAt, env.clock (w.steps - ago) < deadline) ∧
    remaining = FlowBudgetPolicy.remainingSeconds s (env.clock (w.steps - 1))

/-- Every transport is affordable. -/
def Affordable (env : FlowEnv) (w : FlowWorld) : FlowOp → Prop
  | .invoke request remaining => Affords env w request.flowRunId 5 remaining
  | .resume request remaining => Affords env w request.flowRunId 4 remaining
  | _ => True

/-- The Runs that are stored, against the log of what was done: each has an invocation for every
start of an Agent, one more when `begun` is its identifier. -/
structure Accounted (begun : Option UUID) (σ : FlowWorld × FlowLog) : Prop where
  own : ∀ runId s, σ.1.repo.states runId = some s → s.runId = runId
  ordered : ∀ runId s, σ.1.repo.states runId = some s → s.Ordered
  absent : ∀ runId, σ.1.repo.states runId = none → σ.2.countP (invokesFor runId) = 0
  counted : ∀ runId s, σ.1.repo.states runId = some s →
    s.invocations.length = σ.2.countP (invokesFor runId) + if begun = some runId then 1 else 0
  bounded : ∀ runId s, σ.1.repo.states runId = some s →
    s.invocations.length ≤ s.budget.maxInvocations
  within : ∀ runId s, σ.1.repo.states runId = some s → s.status = .completed → s.Spends (· ≤ ·)

/-- What a transition may do to a Run at rest.  It begins `added` invocations. -/
structure Accountable (added : Nat) (s s' : FlowRunState) : Prop where
  own : s'.runId = s.runId
  ordered : s.Ordered → s'.Ordered
  length : s'.invocations.length = s.invocations.length + added
  bounded : s.invocations.length ≤ s.budget.maxInvocations →
    s'.invocations.length ≤ s'.budget.maxInvocations
  within : s'.status = .completed → s'.Spends (· ≤ ·)

section Steps

variable {begun : Option UUID} {σ : FlowWorld × FlowLog} {α β : Type}

theorem countP_quiet {log : FlowLog} {entry : Entry Unit FlowOp FlowOp.Ret} {runId : UUID}
    (h : invokesFor runId entry = false) :
    (log ++ [entry]).countP (invokesFor runId) = log.countP (invokesFor runId) := by
  rw [List.countP_append, List.countP_singleton, h]
  rfl

theorem Accounted.quiet (h : Accounted begun σ) {o : FlowOp} {r : o.Ret} {w' : FlowWorld}
    (hstates : w'.repo.states = σ.1.repo.states)
    (hop : ∀ runId, invokesFor runId ⟨(), o, r⟩ = false) :
    Accounted begun (w', σ.2 ++ [⟨(), o, r⟩]) := by
  constructor
  · intro runId s hs
    exact h.own runId s (by rw [← hstates]; exact hs)
  · intro runId s hs
    exact h.ordered runId s (by rw [← hstates]; exact hs)
  · intro runId hs
    rw [countP_quiet (hop runId)]
    exact h.absent runId (by rw [← hstates]; exact hs)
  · intro runId s hs
    rw [countP_quiet (hop runId)]
    exact h.counted runId s (by rw [← hstates]; exact hs)
  · intro runId s hs
    exact h.bounded runId s (by rw [← hstates]; exact hs)
  · intro runId s hs
    exact h.within runId s (by rw [← hstates]; exact hs)

theorem Accounted.stored (h : Accounted none σ) {runId : UUID} {s : FlowRunState} {o : FlowOp}
    {r : o.Ret} {w' : FlowWorld} {begun : Option UUID}
    (hstates : w'.repo.states = Function.update σ.1.repo.states runId (some s))
    (hown : s.runId = runId) (hordered : s.Ordered)
    (hcounted : s.invocations.length =
      σ.2.countP (invokesFor runId) + if begun = some runId then 1 else 0)
    (hbegun : ∀ other, begun = some other → other = runId)
    (hbounded : s.invocations.length ≤ s.budget.maxInvocations)
    (hwithin : s.status = .completed → s.Spends (· ≤ ·))
    (hop : ∀ other, invokesFor other ⟨(), o, r⟩ = false) :
    Accounted begun (w', σ.2 ++ [⟨(), o, r⟩]) := by
  have hcases : ∀ other found, w'.repo.states other = some found →
      (other = runId ∧ found = s) ∨ (other ≠ runId ∧ σ.1.repo.states other = some found) := by
    intro other found hfound
    rw [hstates, Function.update_apply] at hfound
    by_cases hid : other = runId
    · rw [if_pos hid] at hfound
      exact .inl ⟨hid, (Option.some.inj hfound).symm⟩
    · rw [if_neg hid] at hfound
      exact .inr ⟨hid, hfound⟩
  constructor
  · intro other found hfound
    rcases hcases other found hfound with ⟨hid, heq⟩ | ⟨-, hold⟩
    · rw [heq, hown, hid]
    · exact h.own other found hold
  · intro other found hfound
    rcases hcases other found hfound with ⟨-, heq⟩ | ⟨-, hold⟩
    · rw [heq]
      exact hordered
    · exact h.ordered other found hold
  · intro other hnone
    rw [countP_quiet (hop other)]
    apply h.absent other
    have hnone : w'.repo.states other = none := hnone
    rw [hstates, Function.update_apply] at hnone
    split at hnone
    · cases hnone
    · exact hnone
  · intro other found hfound
    rw [countP_quiet (hop other)]
    rcases hcases other found hfound with ⟨hid, heq⟩ | ⟨hid, hold⟩
    · rw [heq, hid]
      exact hcounted
    · rw [if_neg fun hsome => hid (hbegun other hsome)]
      exact h.counted other found hold
  · intro other found hfound
    rcases hcases other found hfound with ⟨-, heq⟩ | ⟨-, hold⟩
    · rw [heq]
      exact hbounded
    · exact h.bounded other found hold
  · intro other found hfound
    rcases hcases other found hfound with ⟨-, heq⟩ | ⟨-, hold⟩
    · rw [heq]
      exact hwithin
    · exact h.within other found hold

def begins (runId : UUID) (added : Nat) : Option UUID := if added = 1 then some runId else none

theorem Accounted.written (h : Accounted none σ) {s s' : FlowRunState} {o : FlowOp} {r : o.Ret}
    {w' : FlowWorld} {added : Nat} (hadded : added ≤ 1)
    (hstored : σ.1.repo.states s.runId = some s) (hacc : Accountable added s s')
    (hstates : w'.repo.states = Function.update σ.1.repo.states s'.runId (some s'))
    (hop : ∀ runId, invokesFor runId ⟨(), o, r⟩ = false) :
    Accounted (begins s.runId added) (w', σ.2 ++ [⟨(), o, r⟩]) := by
  rw [hacc.own] at hstates
  refine h.stored hstates hacc.own (hacc.ordered (h.ordered s.runId s hstored)) ?_ ?_
    (hacc.bounded (h.bounded s.runId s hstored)) hacc.within hop
  · have hbefore := h.counted s.runId s hstored
    rw [if_neg (by simp), Nat.add_zero] at hbefore
    rw [hacc.length, hbefore]
    unfold begins
    by_cases hone : added = 1
    · simp [hone]
    · have hzero : added = 0 := by omega
      simp [hzero]
  · intro other hother
    unfold begins at hother
    split at hother
    · exact (Option.some.inj hother).symm
    · cases hother

theorem Accounted.created (h : Accounted none σ) {s : FlowRunState} {o : FlowOp} {r : o.Ret}
    {w' : FlowWorld} (hnone : σ.1.repo.states s.runId = none) (hempty : s.invocations = [])
    (hordered : s.Ordered) (hstatus : s.status ≠ .completed)
    (hstates : w'.repo.states = Function.update σ.1.repo.states s.runId (some s))
    (hop : ∀ runId, invokesFor runId ⟨(), o, r⟩ = false) :
    Accounted none (w', σ.2 ++ [⟨(), o, r⟩]) := by
  refine h.stored hstates rfl hordered ?_ (fun _ hsome => nomatch hsome) ?_
    (fun hcompleted => absurd hcompleted hstatus) hop
  · rw [hempty, h.absent s.runId hnone]
    rfl
  · rw [hempty]
    exact Nat.zero_le _

theorem Accounted.invoked {runId : UUID} (h : Accounted (some runId) σ) {s : FlowRunState}
    (hstored : σ.1.repo.states runId = some s) {o : FlowOp} {r : o.Ret} {w' : FlowWorld}
    (hstates : w'.repo.states = σ.1.repo.states)
    (hop : ∀ other, invokesFor other ⟨(), o, r⟩ = decide (other = runId)) :
    Accounted none (w', σ.2 ++ [⟨(), o, r⟩]) := by
  have hcount : ∀ other, (σ.2 ++ [(⟨(), o, r⟩ : Entry Unit FlowOp FlowOp.Ret)]).countP
      (invokesFor other) = σ.2.countP (invokesFor other) + if other = runId then 1 else 0 := by
    intro other
    rw [List.countP_append, List.countP_singleton, hop other]
    simp
  constructor
  · intro other found hfound
    exact h.own other found (by rw [← hstates]; exact hfound)
  · intro other found hfound
    exact h.ordered other found (by rw [← hstates]; exact hfound)
  · intro other hnone
    have hnone : σ.1.repo.states other = none := by
      rw [← hstates]
      exact hnone
    rw [hcount, h.absent other hnone]
    have hother : other ≠ runId := by
      intro heq
      rw [heq, hstored] at hnone
      cases hnone
    rw [if_neg hother]
  · intro other found hfound
    have hbefore := h.counted other found (by rw [← hstates]; exact hfound)
    rw [hcount, hbefore]
    by_cases heq : other = runId
    · rw [if_pos heq, if_pos (by rw [heq]), if_neg (by simp)]
    · have hne : some runId ≠ some other := fun hsame => heq (Option.some.inj hsame).symm
      rw [if_neg heq, if_neg hne, if_neg (by simp)]
  · intro other found hfound
    exact h.bounded other found (by rw [← hstates]; exact hfound)
  · intro other found hfound
    exact h.within other found (by rw [← hstates]; exact hfound)

end Steps

/-! ## Programs that keep the accounts -/

section Programs

variable {env : FlowEnv} {σ : FlowWorld × FlowLog} {α β : Type}

/-- The program keeps the accounts, and every transport it makes is affordable. -/
def Safe (env : FlowEnv) (p : FlowProg α) : Prop :=
  ∀ σ, Accounted none σ → p.Meets (Observer.guarded env.exec (Affordable env))
    (fun _ => Accounted none) (fun _ => Accounted none) σ

theorem Safe.ret (a : α) : Safe env (.ret a) := fun _ h => h

theorem Safe.raise (e : FlowError) : Safe env (.raise e : FlowProg α) := fun _ h => h

theorem Safe.ofExcept (x : Except FlowError α) : Safe env (Prog.ofExcept x) := by
  cases x with
  | ok a => exact Safe.ret a
  | error e => exact Safe.raise e

theorem Safe.bind {p : FlowProg α} {f : α → FlowProg β} (hp : Safe env p)
    (hf : ∀ a, Safe env (f a)) : Safe env (p.bind f) :=
  fun σ h => (hp σ h).bind fun a σ' h' => hf a σ' h'

theorem Safe.call {o : FlowOp} {k : o.Ret → FlowProg α} (hA : ∀ w, Affordable env w o)
    (hstates : ∀ w : FlowWorld, (env.exec o w).2.repo.states = w.repo.states)
    (hop : ∀ runId r, invokesFor runId ⟨(), o, r⟩ = false) (hk : ∀ r, Safe env (k r)) :
    Safe env (.call o k) :=
  fun σ h => Meets.guarded_call (hA σ.1)
    (hk _ _ (h.quiet (hstates σ.1) fun runId => hop runId _))

theorem safe_clock : Safe env SequentialFlowStrategy.clock :=
  Safe.call (fun _ => trivial) (fun _ => rfl) (fun _ _ => rfl) Safe.ret

theorem safe_uuid4 : Safe env uuid4 :=
  Safe.call (fun _ => trivial) (fun _ => rfl) (fun _ _ => rfl) Safe.ret

theorem safe_read (reader : Reader) (runId : UUID) : Safe env (FlowLifecycle.read reader runId) :=
  Safe.call (fun _ => trivial) (fun w => congrArg _ (FlowEnv.exec_get_repo reader runId w))
    (fun _ _ => rfl) Safe.ofExcept

theorem Accounted.read (env : FlowEnv) {begun : Option UUID} (h : Accounted begun σ)
    (reader : Reader) (runId : UUID) :
    (FlowLifecycle.read reader runId).Meets (Observer.guarded env.exec (Affordable env))
      (fun s σ' => σ'.1 = ⟨σ.1.repo, σ.1.steps + 1⟩ ∧ Accounted begun σ' ∧
        σ.1.repo.states runId = some s)
      (fun _ => Accounted begun) σ := by
  have hquiet : Accounted begun ((env.exec (.get reader runId) σ.1).2,
      σ.2 ++ [⟨(), .get reader runId, (env.exec (.get reader runId) σ.1).1⟩]) :=
    h.quiet (congrArg _ (FlowEnv.exec_get_repo reader runId σ.1)) fun _ => rfl
  refine Meets.guarded_call trivial ?_
  cases hstored : σ.1.repo.states runId with
  | none =>
    rw [FlowEnv.exec_get_none hstored] at hquiet ⊢
    exact hquiet
  | some s =>
    rw [FlowEnv.exec_get hstored] at hquiet ⊢
    exact ⟨rfl, hquiet, rfl⟩

theorem Accounted.clock (env : FlowEnv) {begun : Option UUID} (h : Accounted begun σ)
    {E : FlowError → FlowWorld × FlowLog → Prop} :
    SequentialFlowStrategy.clock.Meets (Observer.guarded env.exec (Affordable env))
      (fun now σ' => now = env.clock σ.1.steps ∧ σ'.1 = ⟨σ.1.repo, σ.1.steps + 1⟩ ∧
        Accounted begun σ') E σ :=
  Meets.guarded_call trivial ⟨rfl, rfl, h.quiet rfl fun _ => rfl⟩

theorem Accounted.ofExcept (env : FlowEnv) (h : Accounted none σ) (x : Except FlowError α) :
    (Prog.ofExcept x : FlowProg α).Meets (Observer.guarded env.exec (Affordable env))
      (fun a σ' => σ' = σ ∧ x = .ok a) (fun _ => Accounted none) σ :=
  Meets.ofExcept (fun _ ha => ⟨rfl, ha⟩) fun _ _ => h

theorem Accounted.transact (env : FlowEnv) (h : Accounted none σ) (lc : FlowLifecycle)
    (reader : Reader) (runId : UUID) (transition : FlowRunState → Except FlowError Transition)
    {added : Nat} (hadded : added ≤ 1)
    (haccountable : ∀ s t, σ.1.repo.states runId = some s → transition s = .ok t →
      Accountable added s t.state) :
    (lc.transact reader runId transition).Meets (Observer.guarded env.exec (Affordable env))
      (fun s' σ' => Accounted (begins runId added) σ' ∧ σ'.1.repo.states runId = some s' ∧
        ∃ s t, σ.1.repo.states runId = some s ∧ transition s = .ok t ∧ t.state = s' ∧
          σ'.1.steps = σ.1.steps + 2)
      (fun _ => Accounted none) σ := by
  unfold FlowLifecycle.transact
  apply (h.read env reader runId).bind
  intro s σ₁ hread
  obtain ⟨hworld, hrest, hstored⟩ := hread
  cases htransition : transition s with
  | error e => exact hrest
  | ok t =>
    have hacc := haccountable s t hstored htransition
    show ((Prog.ofExcept (lc.executionTokenFor t.leaseRun) : FlowProg _).bind _).Meets _ _ _ _
    cases htoken : lc.executionTokenFor t.leaseRun with
    | error e => exact hrest
    | ok token =>
      have hown : s.runId = runId := h.own runId s hstored
      have hstates : σ₁.1.repo.states = σ.1.repo.states := by rw [hworld]
      refine Meets.guarded_call trivial ?_
      have hexec : env.exec (.commit t.state s.revision t.drafts token) σ₁.1 =
          ((σ.1.repo.commit (env.repositoryClock (σ.1.steps + 1)) t.state s.revision t.drafts
              token).1,
            ⟨(σ.1.repo.commit (env.repositoryClock (σ.1.steps + 1)) t.state s.revision t.drafts
              token).2, σ.1.steps + 2⟩) := by
        rw [hworld]
        rfl
      rcases σ.1.repo.commit_cases (env.repositoryClock (σ.1.steps + 1)) t.state s.revision t.drafts
        token with ⟨e, hcommit⟩ | ⟨current, -, -, -, -, hcommit⟩
      · rw [hcommit] at hexec
        rw [hexec]
        exact hrest.quiet hstates.symm fun _ => rfl
      · rw [hcommit] at hexec
        rw [hexec]
        refine ⟨?_, ?_, s, t, hstored, htransition, rfl, rfl⟩
        · have hwritten := hrest.written (o := .commit t.state s.revision t.drafts token)
            (r := .ok (σ.1.repo.persisted t.state.runId t.drafts)) hadded
            (by rw [hown, hstates]; exact hstored) hacc
            (show (⟨σ.1.repo.write t.state (σ.1.repo.persisted t.state.runId t.drafts),
              σ.1.steps + 2⟩ : FlowWorld).repo.states = _ by rw [hstates]; rfl) fun _ => rfl
          rw [hown] at hwritten
          exact hwritten
        · show Function.update σ.1.repo.states t.state.runId (some t.state) runId = some t.state
          rw [hacc.own, hown, Function.update_self]

theorem Safe.transact (lc : FlowLifecycle) (reader : Reader) (runId : UUID)
    {transition : FlowRunState → Except FlowError Transition}
    (haccountable : ∀ s t, transition s = .ok t → Accountable 0 s t.state) :
    Safe env (lc.transact reader runId transition) :=
  fun _ h => (h.transact env lc reader runId transition (Nat.zero_le 1)
    fun s t _ ht => haccountable s t ht).weaken fun _ _ hpost => hpost.1

end Programs

/-! ## The transitions -/

section Transitions

variable {s : FlowRunState} {t : Transition}

theorem length_replaceInvocation (inv : AgentInvocation) :
    (s.replaceInvocation inv).length = s.invocations.length := by
  unfold FlowRunState.replaceInvocation
  exact List.length_map _

theorem Accountable.kept {s' : FlowRunState} (step : LifecycleStep) (hstep : step.apply s = .ok s')
    (hown : s'.runId = s.runId) (hlength : s'.invocations.length = s.invocations.length)
    (hbudget : s'.budget = s.budget) (hstatus : s'.status ≠ .completed) : Accountable 0 s s' := by
  refine ⟨hown, fun h => FlowRunState.step_ordered h hstep, hlength, ?_, ?_⟩
  · intro hbounded
    rw [hlength, hbudget]
    exact hbounded
  · intro hcompleted
    exact absurd hcompleted hstatus

theorem start_accountable (h : startTransition s = .ok t) : Accountable 0 s t.state := by
  simp only [startTransition, Except.bind_ok] at h
  obtain ⟨state, hstart, ht⟩ := h
  cases ht
  obtain ⟨-, hstate⟩ := FlowRunState.start_ok hstart
  rw [hstate] at hstart ⊢
  exact Accountable.kept .start hstart rfl rfl rfl (by simp)

theorem settle_accountable {runId : UUID} {result : AgentInvocationResult}
    (h : settleTransition runId result s = .ok t) : Accountable 0 s t.state := by
  simp only [settleTransition, Except.bind_ok] at h
  obtain ⟨state, hsettle, last, -, ht⟩ := h
  cases ht
  obtain ⟨-, active, settled, -, -, hstate⟩ := FlowRunState.settleInvocation_ok hsettle
  rw [hstate] at hsettle ⊢
  refine Accountable.kept (.settleInvocation result) hsettle rfl (length_replaceInvocation settled)
    rfl ?_
  show (if settled.status = .waiting then RunStatus.waiting else .running) ≠ .completed
  split
  · simp
  · simp

theorem resume_accountable {runId invocationId : UUID}
    (h : resumeTransition runId invocationId s = .ok t) : Accountable 0 s t.state := by
  simp only [resumeTransition, Except.bind_ok] at h
  obtain ⟨state, hresume, active, -, ht⟩ := h
  cases ht
  obtain ⟨-, active, resumed, -, -, -, hstate⟩ := FlowRunState.resumeInvocation_ok hresume
  rw [hstate] at hresume ⊢
  exact Accountable.kept (.resumeInvocation invocationId) hresume rfl
    (length_replaceInvocation resumed) rfl (by simp)

theorem terminateActive_length {status : RunStatus} {error : String}
    {invocations : List AgentInvocation} (h : s.terminateActive status error = .ok invocations) :
    invocations.length = s.invocations.length := by
  unfold FlowRunState.terminateActive at h
  cases hactive : s.activeInvocation with
  | none =>
    rw [hactive] at h
    cases h
    rfl
  | some active =>
    simp only [hactive, Except.bind_ok] at h
    obtain ⟨terminated, -, hlist⟩ := h
    cases hlist
    exact length_replaceInvocation terminated

theorem terminate_accountable {runId : UUID} {ending : Termination} {error : String}
    {metadata : List (String × JsonValue)}
    (h : terminateTransition runId ending error metadata s = .ok t) : Accountable 0 s t.state := by
  simp only [terminateTransition, Except.bind_ok] at h
  obtain ⟨state, hterminate, drafts, -, ht⟩ := h
  cases ht
  obtain ⟨-, -, invocations, hinvocations, hstate⟩ := FlowRunState.terminate_ok hterminate
  rw [hstate] at hterminate ⊢
  refine Accountable.kept (.terminate ending error) hterminate rfl
    (terminateActive_length hinvocations) rfl ?_
  show ending.status ≠ .completed
  cases ending <;> simp [Termination.status]

/-- What a Run has used, and its limits, are those of the other. -/
structure SameSpending (s s' : FlowRunState) : Prop where
  usage : s'.usage = s.usage
  modelCalls : s'.modelCallCount = s.modelCallCount
  toolCalls : s'.toolCallCount = s.toolCallCount
  budget : s'.budget = s.budget
  deadline : s'.deadlineAt = s.deadlineAt

theorem SameSpending.spends {s' : FlowRunState} (h : SameSpending s s')
    {relation : Int → Int → Prop} (hspends : s.Spends relation) : s'.Spends relation := by
  constructor
  · rw [h.budget, h.usage]
    exact hspends.inputTokens
  · rw [h.budget, h.usage]
    exact hspends.outputTokens
  · rw [h.budget, h.usage]
    exact hspends.totalTokens
  · rw [h.budget, h.modelCalls]
    exact hspends.modelCalls
  · rw [h.budget, h.toolCalls]
    exact hspends.toolCalls

theorem begin_accountable {request : AgentInvocationRequest} {definition : FlowDefinition}
    (h : beginTransition request definition s = .ok t) :
    Accountable 1 s t.state := by
  simp only [beginTransition, Except.bind_ok] at h
  obtain ⟨state, hbegin, active, -, ht⟩ := h
  cases ht
  obtain ⟨hrunning, -, -, -, -, hbound, hstate⟩ := FlowRunState.beginInvocation_ok hbegin
  have hstep : (LifecycleStep.beginInvocation request definition).apply s = .ok state := hbegin
  have hordered : s.Ordered → state.Ordered := fun hs => FlowRunState.step_ordered hs hstep
  rw [hstate] at hordered ⊢
  refine ⟨rfl, hordered, List.length_append, ?_, ?_⟩
  · intro _
    show (s.invocations ++ [_]).length ≤ s.budget.maxInvocations
    rw [List.length_append]
    exact hbound
  · intro hcompleted
    have hcompleted : s.status = .completed := hcompleted
    rw [hrunning] at hcompleted
    cases hcompleted

theorem begin_spending {request : AgentInvocationRequest} {definition : FlowDefinition}
    (h : beginTransition request definition s = .ok t) : SameSpending s t.state := by
  simp only [beginTransition, Except.bind_ok] at h
  obtain ⟨state, hbegin, active, -, ht⟩ := h
  cases ht
  obtain ⟨-, -, -, -, -, -, hstate⟩ := FlowRunState.beginInvocation_ok hbegin
  rw [hstate]
  refine ⟨?_, ?_, ?_, rfl, rfl⟩
  · show (s.invocations ++ [s.begunInvocation request]).foldl _ _ = _
    rw [List.foldl_append]
    rfl
  · show ((s.invocations ++ [s.begunInvocation request]).map _).sum = _
    rw [List.map_append, List.sum_append]
    exact add_zero _
  · show ((s.invocations ++ [s.begunInvocation request]).map _).sum = _
    rw [List.map_append, List.sum_append]
    exact add_zero _

theorem resume_spending {runId invocationId : UUID} (hordered : s.Ordered)
    (h : resumeTransition runId invocationId s = .ok t) : SameSpending s t.state := by
  simp only [resumeTransition, Except.bind_ok] at h
  obtain ⟨state, hresume, _, -, ht⟩ := h
  cases ht
  obtain ⟨-, active, resumed, hactive, -, hrecord, hstate⟩ :=
    FlowRunState.resumeInvocation_ok hresume
  obtain ⟨hwaiting, hresumed⟩ := AgentInvocation.resume_ok hrecord
  obtain ⟨init, hlist, hinit⟩ := hordered.active_last hactive (by rw [hwaiting]; rfl)
  have hlist' : state.invocations = init ++ [resumed] := by
    rw [hstate]
    exact FlowRunState.replaceInvocation_last hlist (fun inv hinv => (hinit inv hinv).2)
      (by rw [hresumed])
  refine ⟨?_, ?_, ?_, by rw [hstate]; rfl, by rw [hstate]; rfl⟩
  · exact FlowRunState.usage_last hlist hlist' (by rw [hresumed]; rfl)
  · exact (FlowRunState.modelCallCount_last hlist hlist').mpr (by rw [hresumed]; rfl)
  · exact (FlowRunState.toolCallCount_last hlist hlist').mpr (by rw [hresumed]; rfl)

theorem complete_accountable {output : String} (hwithin : s.Spends (· ≤ ·))
    (h : completeTransition output s = .ok t) : Accountable 0 s t.state := by
  simp only [completeTransition, Except.bind_ok] at h
  obtain ⟨state, hcomplete, ht⟩ := h
  cases ht
  obtain ⟨-, -, hstate⟩ := FlowRunState.complete_ok hcomplete
  rw [hstate]
  refine ⟨rfl, fun hordered => hordered, rfl, fun hbounded => hbounded, ?_⟩
  intro _
  exact ⟨hwithin.inputTokens, hwithin.outputTokens, hwithin.totalTokens, hwithin.modelCalls,
    hwithin.toolCalls⟩

end Transitions

/-! ## The methods of the strategy -/

section Methods

variable {env : FlowEnv} (st : SequentialFlowStrategy)

theorem safe_terminate (lc : FlowLifecycle) (runId : UUID) (ending : Termination) (error : String)
    (metadata : List (String × JsonValue)) : Safe env (lc.terminate runId ending error metadata) :=
  Safe.transact lc _ _ fun _ _ => terminate_accountable

theorem safe_record (lc : FlowLifecycle) (runId : UUID) (invocation : AgentInvocation)
    (errorType : String) :
    Safe env (lc.recordCancellationPropagationFailure runId invocation errorType) := by
  unfold FlowLifecycle.recordCancellationPropagationFailure
  apply (safe_read _ _).bind
  intro current
  apply (Safe.ofExcept _).bind
  intro token
  refine Safe.call (fun _ => trivial) (FlowEnv.exec_append_states _ _ _ _) (fun _ _ => rfl) ?_
  intro r
  exact (Safe.ofExcept _).bind fun _ => Safe.ret ()

theorem safe_propagate (invocation : AgentInvocation) (reason : String) :
    Safe env (st.propagateCancellation invocation reason) := by
  unfold SequentialFlowStrategy.propagateCancellation
  simp only
  split
  · refine Safe.call (fun _ => trivial) (fun _ => rfl) (fun _ _ => rfl) ?_
    intro r
    cases r with
    | none => exact Safe.ret ()
    | some e => cases e <;> first | exact Safe.raise _ | exact safe_record _ _ _ _
  · exact safe_record _ _ _ _

theorem safe_propagateIf (active : Option AgentInvocation) (wanted : AgentInvocation → Bool)
    (reason : String) : Safe env (st.propagateIf active wanted reason) := by
  unfold SequentialFlowStrategy.propagateIf
  cases active with
  | none => exact Safe.ret ()
  | some invocation =>
    simp only
    split
    · exact safe_propagate st invocation reason
    · exact Safe.ret ()

theorem safe_reachBudgetLimit (runId : UUID) (v : FlowBudgetExceeded) :
    Safe env (st.reachBudgetLimit runId v) := by
  unfold SequentialFlowStrategy.reachBudgetLimit
  apply (safe_read _ _).bind
  intro current
  split
  · exact Safe.ofExcept _
  · apply (safe_terminate _ _ _ _ _).bind
    intro limited
    apply (safe_propagateIf st _ _ _).bind
    intro _
    exact Safe.ofExcept _

theorem safe_timeoutLimit (s : FlowRunState) : Safe env (st.timeoutLimit s) := by
  unfold SequentialFlowStrategy.timeoutLimit
  apply safe_clock.bind
  intro now
  apply (Safe.ofExcept _).bind
  intro c
  apply (Safe.ofExcept _).bind
  intro limit
  exact safe_reachBudgetLimit st _ _

theorem safe_terminalAfterRace (runId : UUID) :
    Safe env (SequentialFlowStrategy.terminalAfterRace runId) := by
  unfold SequentialFlowStrategy.terminalAfterRace
  apply (safe_read _ _).bind
  intro current
  split
  · exact (Safe.ofExcept _).bind fun _ => Safe.ret _
  · exact Safe.ret _

theorem safe_resultOf {p : FlowProg FlowRunState} (h : Safe env p) :
    Safe env (SequentialFlowStrategy.resultOf p) :=
  h.bind fun _ => Safe.ofExcept _

theorem safe_transportFailure (runId : UUID) (agentKey operation errorType error : String) :
    Safe env (st.transportFailure runId agentKey operation errorType error) := by
  unfold SequentialFlowStrategy.transportFailure
  apply (safe_terminalAfterRace _).bind
  intro terminal
  cases terminal with
  | some result => exact Safe.ret _
  | none => exact safe_resultOf (safe_terminate _ _ _ _ _)

theorem safe_settleFailed (runId : UUID) (agentKey operation : String) (e : FlowError) :
    Safe env (st.settleFailed runId agentKey operation e) := by
  have hother : Safe env (if e.isValueError then
      st.transportFailure runId agentKey s!"{operation} returned an invalid result" e.typeName e.text
      else .raise e) := by
    split
    · exact safe_transportFailure st _ _ _ _ _
    · exact Safe.raise e
  unfold SequentialFlowStrategy.settleFailed
  cases e with
  | invalidTransition message =>
    apply (safe_terminalAfterRace _).bind
    intro terminal
    cases terminal with
    | some result => exact Safe.ret _
    | none => exact Safe.raise _
  | _ => exact hother

theorem Accounted.handleOutcome {σ : FlowWorld × FlowLog} (h : Accounted none σ) (s : FlowRunState)
    (result : AgentInvocationResult) :
    (st.handleOutcome s result).Meets (Observer.guarded env.exec (Affordable env))
      (fun terminal σ' => Accounted none σ' ∧ (terminal = none → σ' = σ))
      (fun _ => Accounted none) σ := by
  have hended : ∀ status error, (do
      let terminal ← SequentialFlowStrategy.resultOf
        (st.lifecycle.terminate s.runId (terminationOf status) error [])
      return some terminal : FlowProg (Option FlowResult)).Meets
      (Observer.guarded env.exec (Affordable env))
      (fun terminal σ' => Accounted none σ' ∧ (terminal = none → σ' = σ))
      (fun _ => Accounted none) σ := by
    intro status error
    apply (safe_resultOf (safe_terminate _ _ _ _ _) σ h).bind
    intro terminal σ' hended
    exact ⟨hended, fun hnone => by cases hnone⟩
  unfold SequentialFlowStrategy.handleOutcome
  cases result.status with
  | completed => exact ⟨h, fun _ => rfl⟩
  | waiting =>
    apply (h.ofExcept env _).bind
    intro waiting σ' hwaiting
    rw [hwaiting.1]
    exact ⟨h, fun hnone => by cases hnone⟩
  | _ => exact hended _ _

theorem safe_create (definition : FlowDefinition) (runId : Option UUID) (now : Time) :
    Safe env (FlowLifecycle.create definition runId now) := by
  have hcreate : ∀ deadlineAt runId, Safe env (.call
      (.create (FlowRunState.initial definition runId now deadlineAt)
        [createdDraft (FlowRunState.initial definition runId now deadlineAt)])
      fun r => (Prog.ofExcept r).bind fun _ =>
        .ret (FlowRunState.initial definition runId now deadlineAt)) := by
    intro deadlineAt runId σ h
    refine Meets.guarded_call trivial ?_
    apply ((Safe.ofExcept _).bind fun _ => Safe.ret _) _
    rcases σ.1.repo.create_cases (FlowRunState.initial definition runId now deadlineAt)
      [createdDraft (FlowRunState.initial definition runId now deadlineAt)] with ⟨e, he⟩ | ⟨-, -, hnone, hok⟩
    · refine h.quiet ?_ fun _ => rfl
      show (σ.1.repo.create _ _).2.states = _
      rw [he]
    · refine h.created hnone rfl ?_ (by simp [FlowRunState.initial]) ?_ fun _ => rfl
      · rw [FlowRunState.ordered_none rfl]
        intro _ hmem
        cases hmem
      · show (σ.1.repo.create _ _).2.states = _
        rw [hok]
  unfold FlowLifecycle.create
  apply (Safe.ofExcept _).bind
  intro deadlineAt
  cases runId with
  | none => exact safe_uuid4.bind (hcreate deadlineAt)
  | some runId => exact hcreate deadlineAt runId

theorem safe_cancel (runId : UUID) (reason : String) : Safe env (st.cancel runId reason) := by
  unfold SequentialFlowStrategy.cancel
  apply (Safe.ofExcept _).bind
  intro _
  apply (Safe.ofExcept _).bind
  intro _
  apply (safe_read _ _).bind
  intro current
  split
  · exact Safe.ofExcept _
  · split
    · exact Safe.raise _
    · apply (safe_terminate _ _ _ _ _).bind
      intro cancelled
      apply (safe_propagateIf st _ _ _).bind
      intro _
      exact Safe.ofExcept _

end Methods

/-! ## The loop over the Agents -/

section Loop

variable {env : FlowEnv} (st : SequentialFlowStrategy) {σ : FlowWorld × FlowLog}

structure Current (s : FlowRunState) (σ : FlowWorld × FlowLog) : Prop where
  accounted : Accounted none σ
  stored : σ.1.repo.states s.runId = some s

/-- What a strategy does next is safe once the Run is settled within its limits. -/
def SafeAfter (env : FlowEnv)
    (continueWith : FlowRunState → AgentInvocationResult → FlowProg FlowResult) : Prop :=
  ∀ settled result σ, Current settled σ → settled.Spends (· ≤ ·) →
    (continueWith settled result).Meets (Observer.guarded env.exec (Affordable env))
      (fun _ => Accounted none) (fun _ => Accounted none) σ

theorem Current.world {s : FlowRunState} (h : Current s σ) {σ' : FlowWorld × FlowLog}
    (hstates : σ'.1.repo.states = σ.1.repo.states) (haccounted : Accounted none σ') :
    Current s σ' := by
  refine ⟨haccounted, ?_⟩
  rw [hstates]
  exact h.stored

theorem Current.afterSettled {settled : FlowRunState} {result : AgentInvocationResult}
    {continueWith : FlowRunState → AgentInvocationResult → FlowProg FlowResult}
    (h : Current settled σ) (hk : SafeAfter env continueWith) :
    (st.afterSettled settled result continueWith).Meets
      (Observer.guarded env.exec (Affordable env))
      (fun _ => Accounted none) (fun _ => Accounted none) σ := by
  unfold SequentialFlowStrategy.afterSettled
  apply (h.accounted.clock env).bind
  intro now σ₁ hclock
  obtain ⟨-, hworld, haccounted⟩ := hclock
  apply (haccounted.ofExcept env _).bind
  intro violation σ₂ hcheck
  obtain ⟨hsame, hcheck⟩ := hcheck
  rw [hsame]
  cases violation with
  | some violation => exact safe_reachBudgetLimit st _ violation _ haccounted
  | none =>
    obtain ⟨hspends, -⟩ := afterTransport_passed hcheck
    -- an Agent that completed leaves the Run as it is
    apply (haccounted.handleOutcome st settled result).bind
    intro terminal σ₃ houtcome
    cases terminal with
    | some terminal => exact houtcome.1
    | none =>
      rw [houtcome.2 rfl]
      exact hk settled result σ₁ (h.world (by rw [hworld]) haccounted) hspends

theorem Accounted.afterTransport (h : Accounted none σ) (state : FlowRunState) (runId : UUID)
    (agentKey operation interrupted : String)
    {continueWith : FlowRunState → AgentInvocationResult → FlowProg FlowResult}
    (hk : SafeAfter env continueWith) (outcome : Transported) :
    (st.afterTransport state runId agentKey operation interrupted continueWith outcome).Meets
      (Observer.guarded env.exec (Affordable env))
      (fun _ => Accounted none) (fun _ => Accounted none) σ := by
  cases outcome with
  | timeout => exact safe_timeoutLimit st state σ h
  | cancelled => exact ((safe_terminate _ _ _ _ _).bind fun _ => Safe.raise _) σ h
  | raised errorType message => exact safe_transportFailure st _ _ _ _ _ σ h
  | result result =>
    have hsettle := h.transact env st.lifecycle .settleInvocation runId
      (settleTransition runId result) (Nat.zero_le 1) fun s t _ ht => settle_accountable ht
    apply hsettle.attempt.bind
    intro outcome σ₁ houtcome
    cases outcome with
    | error e => exact safe_settleFailed st _ _ _ e σ₁ houtcome
    | ok settled =>
      obtain ⟨haccounted, hstored, -⟩ := houtcome
      have hcurrent : Current settled σ₁ := by
        refine ⟨haccounted, ?_⟩
        rw [haccounted.own runId settled hstored]
        exact hstored
      exact hcurrent.afterSettled st hk

theorem Current.completed {state : FlowRunState} (h : Current state σ)
    (hwithin : state.Spends (· ≤ ·)) (output : String) :
    (SequentialFlowStrategy.resultOf (st.lifecycle.complete state.runId output)).Meets
      (Observer.guarded env.exec (Affordable env))
      (fun _ => Accounted none) (fun _ => Accounted none) σ := by
  have hcomplete := h.accounted.transact env st.lifecycle .complete state.runId
    (completeTransition output) (Nat.zero_le 1) (by
      intro s t hstored ht
      have hsame : state = s := Option.some.inj (h.stored.symm.trans hstored)
      rw [hsame] at hwithin
      exact complete_accountable hwithin ht)
  apply hcomplete.bind
  intro completed σ' hpost
  exact Safe.ofExcept _ σ' hpost.1

theorem SameSpending.affords {s s' : FlowRunState} (hsame : SameSpending s s') {w : FlowWorld}
    {runId : UUID} {ago : Nat} (hstored : w.repo.states runId = some s')
    (hspends : s.Spends (· < ·))
    (hdeadline : ∀ deadline ∈ s.deadlineAt, env.clock (w.steps - ago) < deadline) :
    Affords env w runId ago (FlowBudgetPolicy.remainingSeconds s' (env.clock (w.steps - 1))) := by
  refine ⟨s', hstored, hsame.spends hspends, ?_, rfl⟩
  rw [hsame.deadline]
  exact hdeadline

theorem Current.finished {state : FlowRunState} {previous : Option AgentInvocationResult}
    (h : Current state σ) (hprevious : previous ≠ none → state.Spends (· ≤ ·)) :
    (do
      let previous ← Prog.ofExcept (orRaise previous .assertion)
      SequentialFlowStrategy.resultOf
        (st.lifecycle.complete state.runId (previous.output.getD "")) : FlowProg FlowResult).Meets
      (Observer.guarded env.exec (Affordable env))
      (fun _ => Accounted none) (fun _ => Accounted none) σ := by
  apply (h.accounted.ofExcept env _).bind
  intro last σ₁ hlast
  obtain ⟨hsame, hlast⟩ := hlast
  rw [hsame]
  apply h.completed st
  apply hprevious
  rw [orRaise_ok.mp hlast]
  simp

theorem Current.invoked (definition : FlowDefinition) {state : FlowRunState}
    (h : Current state σ) (hspends : state.Spends (· < ·)) {started : Nat}
    (hsteps : σ.1.steps = started + 1)
    (hdeadline : ∀ deadline ∈ state.deadlineAt, env.clock started < deadline)
    (request : UUID → AgentInvocationRequest) (howner : ∀ id, (request id).flowRunId = state.runId)
    (k : FlowRunState → Transported → FlowProg FlowResult)
    (hk : ∀ begun outcome σ', Accounted none σ' → (k begun outcome).Meets
      (Observer.guarded env.exec (Affordable env)) (fun _ => Accounted none)
      (fun _ => Accounted none) σ') :
    (do
      let id ← uuid4
      let checked ← Prog.ofExcept (request id).validate
      let begun ← st.lifecycle.beginInvocation state.runId checked definition
      let now ← SequentialFlowStrategy.clock
      .call (.invoke checked (FlowBudgetPolicy.remainingSeconds begun now)) (k begun)).Meets
      (Observer.guarded env.exec (Affordable env))
      (fun _ => Accounted none) (fun _ => Accounted none) σ := by
  refine Meets.guarded_call trivial ?_
  have hfresh : Accounted none ((env.exec .uuid4 σ.1).2,
      σ.2 ++ [⟨(), .uuid4, (env.exec .uuid4 σ.1).1⟩]) := h.accounted.quiet rfl fun _ => rfl
  apply (hfresh.ofExcept env _).bind
  intro checked σ₁ hchecked
  obtain ⟨hsame, hchecked⟩ := hchecked
  rw [hsame]
  have hrequest : checked.flowRunId = state.runId := by
    rw [AgentInvocationRequest.validate_ok hchecked]
    exact howner _
  have hbegin := hfresh.transact env st.lifecycle .beginInvocation state.runId
    (beginTransition checked definition) (Nat.le_refl 1) fun s t _ ht => begin_accountable ht
  apply hbegin.bind
  intro begun σ₂ hbegun
  obtain ⟨haccounted, hstored, s, t, hbefore, ht, hstate, hsteps₂⟩ := hbegun
  have hs : state = s := Option.some.inj (h.stored.symm.trans hbefore)
  have hspending : SameSpending state begun := by
    rw [hs, ← hstate]
    exact begin_spending ht
  have hsteps₂ : σ₂.1.steps = started + 4 := by
    rw [hsteps₂]
    show σ.1.steps + 1 + 2 = _
    omega
  apply (haccounted.clock env).bind
  intro now σ₃ hclock
  obtain ⟨hnow, hworld, haccounted₃⟩ := hclock
  have hsteps₃ : σ₃.1.steps = started + 5 := by
    rw [hworld]
    show σ₂.1.steps + 1 = _
    omega
  have hstored₃ : σ₃.1.repo.states state.runId = some begun := by
    rw [hworld]
    exact hstored
  refine Meets.guarded_call ?_ ?_
  · show Affords env σ₃.1 checked.flowRunId 5 _
    have hlast : now = env.clock (σ₃.1.steps - 1) := by
      rw [hnow, hsteps₂, hsteps₃]
      rfl
    rw [hlast, hrequest]
    apply hspending.affords hstored₃ hspends
    rw [hsteps₃]
    exact hdeadline
  · apply hk
    refine haccounted₃.invoked hstored₃ ?_ fun other => ?_
    · rfl
    show decide (checked.flowRunId = other) = decide (other = state.runId)
    rw [hrequest]
    exact decide_eq_decide.mpr eq_comm

theorem Current.advance (definition : FlowDefinition) (input : FlowInput) (fuel : Nat)
    {state : FlowRunState} {previous : Option AgentInvocationResult} (h : Current state σ)
    (hprevious : previous ≠ none → state.Spends (· ≤ ·)) :
    (st.advance definition input fuel state previous).Meets
      (Observer.guarded env.exec (Affordable env))
      (fun _ => Accounted none) (fun _ => Accounted none) σ := by
  induction fuel generalizing state previous σ with
  | zero =>
    unfold SequentialFlowStrategy.advance
    cases definition.agents[state.invocations.length]? with
    | none => exact h.finished st hprevious
    | some binding => exact h.accounted
  | succ fuel ih =>
    unfold SequentialFlowStrategy.advance
    cases definition.agents[state.invocations.length]? with
    | none => exact h.finished st hprevious
    | some binding =>
      apply (h.accounted.clock env).bind
      intro now σ₁ hclock
      obtain ⟨hnow, hworld, haccounted⟩ := hclock
      apply (haccounted.ofExcept env _).bind
      intro violation σ₂ hcheck
      obtain ⟨hsame, hcheck⟩ := hcheck
      rw [hsame]
      cases violation with
      | some violation => exact safe_reachBudgetLimit st _ violation _ haccounted
      | none =>
        obtain ⟨hspends, hdeadline⟩ := beforeTransport_passed hcheck
        rw [hnow] at hdeadline
        have hcurrent : Current state σ₁ := h.world (by rw [hworld]) haccounted
        apply hcurrent.invoked st definition hspends (by rw [hworld]) hdeadline
          (SequentialFlowStrategy.requestFor state input previous binding) (fun _ => rfl)
          (fun begun => st.afterTransport begun begun.runId binding.key "invoke"
            "Sequential Flow execution cancelled"
            fun settled result => st.advance definition input fuel settled (some result))
        intro begun outcome σ' haccounted'
        apply haccounted'.afterTransport st begun begun.runId binding.key "invoke"
          "Sequential Flow execution cancelled" _ outcome
        intro settled result σ'' hsettled hwithin
        exact ih hsettled fun _ => hwithin

end Loop

/-! ## The calls -/

section Calls

variable {env : FlowEnv} (st : SequentialFlowStrategy)

theorem safe_run (definition : FlowDefinition) (input : FlowInput) (runId : Option UUID) :
    Safe env (st.run definition input runId) := by
  unfold SequentialFlowStrategy.run
  apply (Safe.ofExcept _).bind
  intro _
  apply safe_clock.bind
  intro now
  apply (safe_create _ _ _).bind
  intro created σ h
  have hstart := h.transact env st.lifecycle .start created.runId startTransition (Nat.zero_le 1)
    fun s t _ ht => start_accountable ht
  apply hstart.bind
  intro started σ₁ hstarted
  obtain ⟨haccounted, hstored, -⟩ := hstarted
  have hcurrent : Current started σ₁ := by
    refine ⟨haccounted, ?_⟩
    rw [haccounted.own created.runId started hstored]
    exact hstored
  exact hcurrent.advance st definition input _ fun hnone => absurd rfl hnone

theorem safe_resumeWaiting (definition : FlowDefinition) (runId : UUID)
    (userInput : Option String) (confirmation : Option ToolConfirmation) :
    Safe env (st.resumeWaiting definition runId userInput confirmation) := by
  unfold SequentialFlowStrategy.resumeWaiting
  apply (Safe.ofExcept _).bind
  intro _ σ h
  apply (h.read env .resumeWaiting runId).bind
  intro waiting σ₁ hread
  obtain ⟨hworld₁, haccounted₁, hwaiting⟩ := hread
  apply (haccounted₁.ofExcept env _).bind
  intro _ σ₁' hmatches
  rw [hmatches.1]
  apply (haccounted₁.clock env).bind
  intro checkedAt σ₂ hclock
  obtain ⟨hcheckedAt, hworld₂, haccounted₂⟩ := hclock
  apply (haccounted₂.ofExcept env _).bind
  intro violation σ₂' hcheck
  obtain ⟨hsame, hcheck⟩ := hcheck
  rw [hsame]
  cases violation with
  | some violation => exact safe_reachBudgetLimit st _ violation _ haccounted₂
  | none =>
    obtain ⟨hspends, hdeadline⟩ := beforeTransport_passed hcheck
    apply (haccounted₂.ofExcept env _).bind
    intro active σ₂'' hactive
    rw [hactive.1]
    have hresume := haccounted₂.transact env st.lifecycle .resumeInvocation runId
      (resumeTransition runId active.id) (Nat.zero_le 1) fun s t _ ht => resume_accountable ht
    apply hresume.bind
    intro resumed σ₃ hresumed
    obtain ⟨haccounted₃, hstored₃, s, t, hbefore, ht, hstate, hsteps₃⟩ := hresumed
    have hs : waiting = s := by
      rw [hworld₂, hworld₁] at hbefore
      exact Option.some.inj (hwaiting.symm.trans hbefore)
    have hspending : SameSpending waiting resumed := by
      rw [hs, ← hstate]
      exact resume_spending (haccounted₂.ordered runId s hbefore) ht
    have hsteps₃ : σ₃.1.steps = σ.1.steps + 4 := by
      rw [hsteps₃, hworld₂, hworld₁]
    apply (haccounted₃.ofExcept env _).bind
    intro request σ₃' hrequest
    obtain ⟨hsame₃, hrequest⟩ := hrequest
    rw [hsame₃]
    have howner : request.flowRunId = runId := by
      rw [AgentInvocationResume.validate_ok hrequest]
    apply (haccounted₃.clock env).bind
    intro now σ₄ hclock
    obtain ⟨hnow, hworld₄, haccounted₄⟩ := hclock
    have hsteps₄ : σ₄.1.steps = σ.1.steps + 5 := by
      rw [hworld₄]
      show σ₃.1.steps + 1 = _
      omega
    refine Meets.guarded_call ?_ ?_
    · show Affords env σ₄.1 request.flowRunId 4 _
      have hlast : now = env.clock (σ₄.1.steps - 1) := by
        rw [hnow, hsteps₃, hsteps₄]
        rfl
      have hremaining : FlowBudgetPolicy.remainingSeconds waiting now =
          FlowBudgetPolicy.remainingSeconds resumed now := by
        unfold FlowBudgetPolicy.remainingSeconds
        rw [hspending.deadline]
      rw [hremaining, hlast, howner]
      apply hspending.affords (by rw [hworld₄]; exact hstored₃) hspends
      rw [hcheckedAt, hworld₁] at hdeadline
      rw [hsteps₄]
      exact hdeadline
    · refine Accounted.afterTransport st (haccounted₄.quiet ?_ fun _ => rfl) _ _ _ _ _ ?_ _
      · rfl
      intro settled result σ' hcurrent hwithin
      exact hcurrent.advance st definition _ _ fun _ => hwithin

theorem safe_call (made : FlowCall) : Safe env (made.prog st) := by
  cases made with
  | run definition input runId => exact safe_run st definition input runId
  | resume definition runId userInput => exact safe_resumeWaiting st _ _ _ _
  | confirm definition runId confirmation => exact safe_resumeWaiting st _ _ _ _
  | cancel runId reason => exact safe_cancel st runId reason

theorem safe_conduct (calls : List FlowCall) : Safe env (st.conduct calls) := by
  induction calls with
  | nil => exact Safe.ret _
  | cons made rest ih =>
    unfold SequentialFlowStrategy.conduct
    apply Safe.bind
    · intro σ h
      exact (safe_call st made σ h).attempt.weaken fun outcome σ' houtcome => by
        cases outcome with
        | ok result => exact houtcome
        | error e => exact houtcome
    · intro outcome
      exact ih.bind fun _ => Safe.ret _

/-- Whatever calls a client makes, the limits of every Run hold over all of them: an Agent is started
or resumed only while the Run is below each of its limits and before its deadline, no more Agents
are started than the limit on invocations, and a Flow that completed is within the others. -/
theorem budget_enforced (env : FlowEnv) (st : SequentialFlowStrategy) (calls : List FlowCall)
    (steps : Nat) :
    (st.conduct calls).Along env.exec (Affordable env) ⟨{}, steps⟩ ∧
      ∀ runId s, ((st.conduct calls).eval env.exec ⟨{}, steps⟩).2.repo.states runId = some s →
        ((st.conduct calls).history env.exec ⟨{}, steps⟩).countP (invokesFor runId) ≤
          s.budget.maxInvocations ∧
        (s.status = .completed → s.Spends (· ≤ ·)) := by
  have hstart : Accounted none ((⟨{}, steps⟩ : FlowWorld), ([] : FlowLog)) := by
    constructor
    case absent => exact fun _ _ => rfl
    all_goals exact fun _ _ hs => nomatch hs
  obtain ⟨halong, houtcome⟩ := (safe_conduct st calls _ hstart).guarded
  have haccounted : Accounted none (((st.conduct calls).eval env.exec ⟨{}, steps⟩).2,
      (st.conduct calls).history env.exec ⟨{}, steps⟩) := by
    rw [List.nil_append] at houtcome
    cases hresult : ((st.conduct calls).eval env.exec ⟨{}, steps⟩).1 with
    | ok results =>
      rw [hresult] at houtcome
      exact houtcome
    | error e =>
      rw [hresult] at houtcome
      exact houtcome
  refine ⟨halong, fun runId s hs => ⟨?_, haccounted.within runId s hs⟩⟩
  calc ((st.conduct calls).history env.exec ⟨{}, steps⟩).countP (invokesFor runId)
    _ = s.invocations.length := by
        rw [haccounted.counted runId s hs, if_neg (by simp), Nat.add_zero]
    _ ≤ s.budget.maxInvocations := haccounted.bounded runId s hs

end Calls

end Flows
end BaseAgent
