import BaseAgent.Flows.EventLog
import BaseAgent.Flows.Recovery
import BaseAgent.Flows.Sequential

/-!
# Recovery never repeats an uncertain transport

Any number of `run`, `resume`, `confirm` and `cancel` calls of the sequential
strategy run on one repository, and any of them may stop for good after any step.
A transport call whose result was not committed leaves the Flow running with an
active invocation, or terminal; in both cases the recovery policy does not continue
the Flow.

The ghost value of a task is the snapshot it last read and its phase.  A task that
committed a beginning or a resumption owns the Flow until it settles: as long as the
Flow is not terminal, its revision stays the one the owner committed, it is running
and the owner's invocation is active.  There is at most one owner, because a
beginning needs a Flow without an active invocation and a resumption needs a waiting
one.
-/

namespace BaseAgent
namespace Flows

open Async

/-- The Flow Run, the invocation and the outcome of a transport call. -/
def transport : (o : FlowOp) → o.Ret → Option (UUID × UUID × Transported)
  | .invoke request _, outcome => some (request.flowRunId, request.invocationId, outcome)
  | .resume request _, outcome => some (request.flowRunId, request.invocationId, outcome)
  | _, _ => none

/-- An accepted commit that stores the result for the invocation. -/
def Stores (runId invocationId : UUID) (result : AgentInvocationResult) :
    (o : FlowOp) → o.Ret → Prop
  | .commit state _ _ _, .ok _ => state.runId = runId ∧
      ∃ inv ∈ state.invocations, inv.id = invocationId ∧ inv.result = some result
  | _, _ => False

section

variable {ι : Type}

/-- The transport call at position `n` of the log returned a result, and the task that
made it later committed that result. -/
def Committed (log : List (FlowEntry ι)) (n : Nat) : Prop :=
  ∃ e runId invocationId result m c, log[n]? = some e ∧
    transport e.op e.reply = some (runId, invocationId, .result result) ∧ n < m ∧
    log[m]? = some c ∧ c.task = e.task ∧ Stores runId invocationId result c.op c.reply

/-- The position in the log is that of a transport call for the Run. -/
def TransportAt (log : List (FlowEntry ι)) (runId : UUID) (n : Nat) : Prop :=
  ∃ e invocationId outcome, log[n]? = some e ∧
    transport e.op e.reply = some (runId, invocationId, outcome)

theorem Committed.append {log : List (FlowEntry ι)} {n : Nat} (h : Committed log n)
    (e : FlowEntry ι) : Committed (log ++ [e]) n := by
  obtain ⟨e₁, runId, invocationId, result, m, c, h₁, h₂, h₃, h₄, h₅, h₆⟩ := h
  have hold : ∀ {k x}, log[k]? = some x → (log ++ [e])[k]? = some x := fun hk => by
    rw [List.getElem?_append_left (List.getElem?_eq_some_iff.mp hk).1, hk]
  exact ⟨e₁, runId, invocationId, result, m, c, hold h₁, h₂, h₃, hold h₄, h₅, h₆⟩

end

/-- Where a task stands between a commit that starts a transport and the commit that
settles it.  `issued` is the position of the transport call in the log and its
outcome. -/
inductive Phase where
  | idle
  | owner (runId : UUID) (revision : Nat) (invocationId : UUID)
      (issued : Option (Nat × Transported))

structure Ghost where
  read : Option FlowRunState := none
  phase : Phase := .idle

def TerminalRun (r : InMemoryFlowRepository) (runId : UUID) : Prop :=
  ∃ s, r.states runId = some s ∧ s.status.terminal = true

def Owned (r : InMemoryFlowRepository) (runId : UUID) (revision : Nat) (invocationId : UUID) :
    Prop :=
  ∃ s, r.states runId = some s ∧ (s.status.terminal = true ∨
    (s.revision = revision ∧ s.status = .running ∧ s.activeInvocationId = some invocationId))

section

variable {ι : Type}

structure Phases (r : InMemoryFlowRepository) (log : List (FlowEntry ι)) (phase : ι → Phase) :
    Prop where
  owned : ∀ i runId rev id issued, phase i = .owner runId rev id issued → Owned r runId rev id
  unique : ∀ i j runId rev id issued rev' id' issued', phase i = .owner runId rev id issued →
    phase j = .owner runId rev' id' issued' → i ≠ j → TerminalRun r runId
  issued : ∀ i runId rev id n outcome, phase i = .owner runId rev id (some (n, outcome)) →
    ∃ e, log[n]? = some e ∧ e.task = i ∧ transport e.op e.reply = some (runId, id, outcome)
  covered : ∀ n e runId id outcome, log[n]? = some e →
    transport e.op e.reply = some (runId, id, outcome) →
    Committed log n ∨ TerminalRun r runId ∨
      ∃ rev, phase e.task = .owner runId rev id (some (n, outcome))

def transportOutline (ι : Type) : Outline ι FlowOp FlowOp.Ret FlowWorld Ghost where
  Inv w log ghost := (logOutline ι).Inv w log (fun i => (ghost i).read) ∧
    Phases w.repo log fun i => (ghost i).phase

theorem entry_append {log : List (FlowEntry ι)} {n : Nat} {x : FlowEntry ι}
    (h : log[n]? = some x) (e : FlowEntry ι) : (log ++ [e])[n]? = some x := by
  rw [List.getElem?_append_left (List.getElem?_eq_some_iff.mp h).1, h]

theorem entry_append_cases {log : List (FlowEntry ι)} {n : Nat} {x e : FlowEntry ι}
    (h : (log ++ [e])[n]? = some x) : log[n]? = some x ∨ (n = log.length ∧ x = e) := by
  rcases Nat.lt_or_ge n log.length with hlt | hge
  · rw [List.getElem?_append_left hlt] at h
    exact .inl h
  · rw [List.getElem?_append_right hge, List.getElem?_singleton] at h
    split at h
    · exact .inr ⟨by omega, (Option.some.inj h).symm⟩
    · cases h

theorem Phases.quiet {r r' : InMemoryFlowRepository} {log : List (FlowEntry ι)}
    {phase : ι → Phase} (h : Phases r log phase) (hs : r'.states = r.states) {e : FlowEntry ι}
    (he : transport e.op e.reply = none) : Phases r' (log ++ [e]) phase := by
  have hterm : ∀ {run}, TerminalRun r run → TerminalRun r' run := by
    intro run ht
    unfold TerminalRun at ht ⊢
    rw [hs]
    exact ht
  refine ⟨?_, ?_, ?_, ?_⟩
  · intro i run rev id issued hp
    have := h.owned i run rev id issued hp
    unfold Owned at this ⊢
    rw [hs]
    exact this
  · intro i j run rev id issued rev' id' issued' hi hj hne
    exact hterm (h.unique i j run rev id issued rev' id' issued' hi hj hne)
  · intro i run rev id n outcome hp
    obtain ⟨x, hx, htask, htr⟩ := h.issued i run rev id n outcome hp
    exact ⟨x, entry_append hx e, htask, htr⟩
  · intro n x run id outcome hx htr
    rcases entry_append_cases hx with hx | ⟨-, rfl⟩
    · rcases h.covered n x run id outcome hx htr with hc | ht | ho
      · exact .inl (hc.append e)
      · exact .inr (.inl (hterm ht))
      · exact .inr (.inr ho)
    · rw [he] at htr
      cases htr

theorem Phases.added {r r' : InMemoryFlowRepository} {log : List (FlowEntry ι)}
    {phase : ι → Phase} (h : Phases r log phase) {runId : UUID} {s : FlowRunState}
    (hnone : r.states runId = none)
    (hs : r'.states = Function.update r.states runId (some s)) {e : FlowEntry ι}
    (he : transport e.op e.reply = none) : Phases r' (log ++ [e]) phase := by
  have hkeep : ∀ {run old}, r.states run = some old → r'.states run = some old := by
    intro run old hold
    have hne : run ≠ runId := by
      rintro rfl
      rw [hnone] at hold
      cases hold
    rw [hs, Function.update_of_ne hne, hold]
  have hterm : ∀ {run}, TerminalRun r run → TerminalRun r' run := by
    rintro run ⟨old, hold, ht⟩
    exact ⟨old, hkeep hold, ht⟩
  refine ⟨?_, ?_, ?_, ?_⟩
  · intro i run rev id issued hp
    obtain ⟨old, hold, hrest⟩ := h.owned i run rev id issued hp
    exact ⟨old, hkeep hold, hrest⟩
  · intro i j run rev id issued rev' id' issued' hi hj hne
    exact hterm (h.unique i j run rev id issued rev' id' issued' hi hj hne)
  · intro i run rev id n outcome hp
    obtain ⟨x, hx, htask, htr⟩ := h.issued i run rev id n outcome hp
    exact ⟨x, entry_append hx e, htask, htr⟩
  · intro n x run id outcome hx htr
    rcases entry_append_cases hx with hx | ⟨-, rfl⟩
    · rcases h.covered n x run id outcome hx htr with hc | ht | ho
      · exact .inl (hc.append e)
      · exact .inr (.inl (hterm ht))
      · exact .inr (.inr ho)
    · rw [he] at htr
      cases htr

/-- The accepted commit of `next` over the stored snapshot `cur`. -/
structure Overwrites (r r' : InMemoryFlowRepository) (cur next : FlowRunState) : Prop where
  stored : r.states cur.runId = some cur
  opened : cur.status.terminal = false
  runId : next.runId = cur.runId
  states : r'.states = Function.update r.states cur.runId (some next)

namespace Overwrites

variable {r r' : InMemoryFlowRepository} {cur next : FlowRunState} {log : List (FlowEntry ι)}
  {phase : ι → Phase}

theorem renewed (h : Overwrites r r' cur next) : r'.states cur.runId = some next := by
  rw [h.states, Function.update_self]

theorem other (h : Overwrites r r' cur next) {run : UUID} (hne : run ≠ cur.runId) :
    r'.states run = r.states run := by
  rw [h.states, Function.update_of_ne hne]

theorem not_terminal (h : Overwrites r r' cur next) : ¬ TerminalRun r cur.runId := by
  rintro ⟨s, hs, hterminal⟩
  rw [h.stored] at hs
  rw [← Option.some.inj hs, h.opened] at hterminal
  cases hterminal

theorem terminal (h : Overwrites r r' cur next) {run : UUID} (hrun : TerminalRun r run) :
    TerminalRun r' run := by
  by_cases hr : run = cur.runId
  · rw [hr] at hrun
    exact absurd hrun h.not_terminal
  · obtain ⟨s, hs, hterminal⟩ := hrun
    exact ⟨s, by rw [h.other hr]; exact hs, hterminal⟩

theorem owned (h : Overwrites r r' cur next) {run id : UUID} {rev : Nat} (hne : run ≠ cur.runId)
    (howned : Owned r run rev id) : Owned r' run rev id := by
  obtain ⟨s, hs, hrest⟩ := howned
  exact ⟨s, by rw [h.other hne]; exact hs, hrest⟩

/-- An owner of the Run relies on `cur` being its own snapshot. -/
theorem held (h : Overwrites r r' cur next) (hphases : Phases r log phase) {j : ι} {rev : Nat}
    {id : UUID} {issued : Option (Nat × Transported)}
    (hj : phase j = .owner cur.runId rev id issued) :
    cur.revision = rev ∧ cur.status = .running ∧ cur.activeInvocationId = some id := by
  obtain ⟨s, hs, hrest⟩ := hphases.owned j _ _ _ _ hj
  cases hrest with
  | inl hterminal => exact absurd ⟨s, hs, hterminal⟩ h.not_terminal
  | inr hown =>
    rw [h.stored] at hs
    rw [Option.some.inj hs]
    exact hown

theorem unowned (h : Overwrites r r' cur next) (hphases : Phases r log phase)
    (hfree : ¬ (cur.status = .running ∧ cur.activeInvocationId.isSome = true)) (j : ι) (rev : Nat)
    (id : UUID) (issued : Option (Nat × Transported)) :
    phase j ≠ .owner cur.runId rev id issued := by
  intro hj
  have hheld := h.held hphases hj
  apply hfree
  rw [hheld.2.1, hheld.2.2]
  exact ⟨rfl, rfl⟩

/-- A transport call for the Run is committed, or its task still owns the Run. -/
theorem committed_or_owner (h : Overwrites r r' cur next) (hphases : Phases r log phase) {n : Nat}
    {x : FlowEntry ι} {id : UUID} {outcome : Transported} (hx : log[n]? = some x)
    (htr : transport x.op x.reply = some (cur.runId, id, outcome)) :
    Committed log n ∨ ∃ rev, phase x.task = .owner cur.runId rev id (some (n, outcome)) := by
  rcases hphases.covered n x _ id outcome hx htr with hcommitted | hterminal | howner
  · exact .inl hcommitted
  · exact absurd hterminal h.not_terminal
  · exact .inr howner

end Overwrites

variable [DecidableEq ι]

theorem Phases.issue {r : InMemoryFlowRepository} {log : List (FlowEntry ι)}
    {phase : ι → Phase} (h : Phases r log phase) {e : FlowEntry ι} {run : UUID} {rev : Nat}
    {id : UUID} {outcome : Transported} (hp : phase e.task = .owner run rev id none)
    (he : transport e.op e.reply = some (run, id, outcome)) :
    Phases r (log ++ [e])
      (Function.update phase e.task (.owner run rev id (some (log.length, outcome)))) := by
  have hupd : ∀ j run' rev' id' issued', Function.update phase e.task
      (.owner run rev id (some (log.length, outcome))) j = .owner run' rev' id' issued' →
      ∃ issued'', phase j = .owner run' rev' id' issued'' := by
    intro j run' rev' id' issued' hj
    by_cases hje : j = e.task
    · subst hje
      rw [Function.update_self] at hj
      cases hj
      exact ⟨none, hp⟩
    · rw [Function.update_of_ne hje] at hj
      exact ⟨issued', hj⟩
  refine ⟨?_, ?_, ?_, ?_⟩
  · intro j run' rev' id' issued' hj
    obtain ⟨issued'', hj'⟩ := hupd j run' rev' id' issued' hj
    exact h.owned j run' rev' id' issued'' hj'
  · intro j k run' rev' id' issued' rev'' id'' issued'' hj hk hne
    obtain ⟨a, hj'⟩ := hupd j _ _ _ _ hj
    obtain ⟨b, hk'⟩ := hupd k _ _ _ _ hk
    exact h.unique j k _ _ _ _ _ _ _ hj' hk' hne
  · intro j run' rev' id' n outcome' hj
    by_cases hje : j = e.task
    · subst hje
      rw [Function.update_self] at hj
      cases hj
      exact ⟨e, by simp, rfl, he⟩
    · rw [Function.update_of_ne hje] at hj
      obtain ⟨x, hx, htask, htr⟩ := h.issued j run' rev' id' n outcome' hj
      exact ⟨x, entry_append hx e, htask, htr⟩
  · intro n x run' id' outcome' hx htr
    rcases entry_append_cases hx with hx | ⟨rfl, rfl⟩
    · rcases h.covered n x run' id' outcome' hx htr with hc | ht | ⟨rev', ho⟩
      · exact .inl (hc.append e)
      · exact .inr (.inl ht)
      · have hne : x.task ≠ e.task := by
          intro heq
          rw [heq, hp] at ho
          cases ho
        exact .inr (.inr ⟨rev', by rw [Function.update_of_ne hne]; exact ho⟩)
    · rw [he] at htr
      cases htr
      exact .inr (.inr ⟨rev, by rw [Function.update_self]⟩)

/-- How the commit of `next` over `cur` may move the phase of the task that makes it. -/
inductive Moves (cur next : FlowRunState) : Phase → Phase → Prop
  | ends (phase : Phase) (h : next.status.terminal = true) : Moves cur next phase phase
  | free (h : ¬ (cur.status = .running ∧ cur.activeInvocationId.isSome = true)) :
      Moves cur next .idle .idle
  | arms (id : UUID) (h : ¬ (cur.status = .running ∧ cur.activeInvocationId.isSome = true))
      (hstatus : next.status = .running) (hactive : next.activeInvocationId = some id) :
      Moves cur next .idle (.owner next.runId next.revision id none)
  | settles (rev n : Nat) (id active : UUID) (result : AgentInvocationResult)
      (hactive : cur.activeInvocationId = some active)
      (hstored : ∃ inv ∈ next.invocations, inv.id = active ∧ inv.result = some result) :
      Moves cur next (.owner cur.runId rev id (some (n, .result result))) .idle

/-- At most the task of the last entry owns the Run, before its transport call, and the
earlier transport calls for the Run are committed. -/
structure Cleared (r : InMemoryFlowRepository) (log : List (FlowEntry ι)) (e : FlowEntry ι)
    (phase : ι → Phase) (runId : UUID) : Prop where
  owner : ∀ j rev id issued, phase j = .owner runId rev id issued →
    j = e.task ∧ Owned r runId rev id ∧ issued = none
  committed : ∀ n x id outcome, log[n]? = some x →
    transport x.op x.reply = some (runId, id, outcome) → Committed (log ++ [e]) n

section

variable {r r' : InMemoryFlowRepository} {cur next : FlowRunState} {log : List (FlowEntry ι)}
  {phase : ι → Phase} {e : FlowEntry ι}

theorem Phases.free_cleared (h : Phases r log phase) (hover : Overwrites r r' cur next)
    (hfree : ¬ (cur.status = .running ∧ cur.activeInvocationId.isSome = true)) :
    Cleared r' log e (Function.update phase e.task .idle) cur.runId := by
  constructor
  · intro j rev id issued hj
    by_cases hje : j = e.task
    · rw [hje, Function.update_self] at hj
      cases hj
    · rw [Function.update_of_ne hje] at hj
      exact absurd hj (hover.unowned h hfree j rev id issued)
  · intro n x id outcome hx htr
    cases hover.committed_or_owner h hx htr with
    | inl hcommitted => exact hcommitted.append e
    | inr howner =>
      obtain ⟨rev, ho⟩ := howner
      exact absurd ho (hover.unowned h hfree _ _ _ _)

theorem Phases.arms_cleared (h : Phases r log phase) (hover : Overwrites r r' cur next) {id₀ : UUID}
    (hfree : ¬ (cur.status = .running ∧ cur.activeInvocationId.isSome = true))
    (hstatus : next.status = .running) (hactive : next.activeInvocationId = some id₀) :
    Cleared r' log e
      (Function.update phase e.task (.owner next.runId next.revision id₀ none)) cur.runId := by
  constructor
  · intro j rev id issued hj
    by_cases hje : j = e.task
    · rw [hje, Function.update_self] at hj
      obtain ⟨-, rfl, rfl, rfl⟩ := Phase.owner.inj hj
      exact ⟨hje, ⟨next, hover.renewed, .inr ⟨rfl, hstatus, hactive⟩⟩, rfl⟩
    · rw [Function.update_of_ne hje] at hj
      exact absurd hj (hover.unowned h hfree j rev id issued)
  · intro n x id outcome hx htr
    cases hover.committed_or_owner h hx htr with
    | inl hcommitted => exact hcommitted.append e
    | inr howner =>
      obtain ⟨rev, ho⟩ := howner
      exact absurd ho (hover.unowned h hfree _ _ _ _)

theorem Phases.settles_cleared (h : Phases r log phase) (hover : Overwrites r r' cur next)
    {rev₀ n₀ : Nat} {id₀ active : UUID} {result : AgentInvocationResult}
    (hbefore : phase e.task = .owner cur.runId rev₀ id₀ (some (n₀, .result result)))
    (hactive : cur.activeInvocationId = some active)
    (hstored : Stores cur.runId active result e.op e.reply) :
    Cleared r' log e (Function.update phase e.task .idle) cur.runId := by
  have honly : ∀ j rev id issued, phase j = .owner cur.runId rev id issued → j = e.task := by
    intro j rev id issued hj
    by_contra hne
    exact hover.not_terminal (h.unique j e.task _ _ _ _ _ _ _ hj hbefore hne)
  constructor
  · intro j rev id issued hj
    by_cases hje : j = e.task
    · rw [hje, Function.update_self] at hj
      cases hj
    · rw [Function.update_of_ne hje] at hj
      exact absurd (honly j rev id issued hj) hje
  · intro n x id outcome hx htr
    cases hover.committed_or_owner h hx htr with
    | inl hcommitted => exact hcommitted.append e
    | inr howner =>
      -- this commit is the one that settles the call
      obtain ⟨rev, ho⟩ := howner
      have htask := honly _ _ _ _ ho
      rw [htask, hbefore] at ho
      cases ho
      have hid := (hover.held h hbefore).2.2
      rw [hactive] at hid
      obtain rfl := Option.some.inj hid
      exact ⟨x, cur.runId, active, result, log.length, e, entry_append hx e, htr,
        (List.getElem?_eq_some_iff.mp hx).1, by simp, htask.symm, hstored⟩

theorem Phases.commit_cleared {phase' : Phase} (h : Phases r log phase)
    (hover : Overwrites r r' cur next)
    (hstores : ∀ id result, (∃ inv ∈ next.invocations, inv.id = id ∧ inv.result = some result) →
      Stores cur.runId id result e.op e.reply)
    (hmove : Moves cur next (phase e.task) phase') :
    TerminalRun r' cur.runId ∨ Cleared r' log e (Function.update phase e.task phase') cur.runId := by
  generalize hbefore : phase e.task = before at hmove
  cases hmove with
  | ends _ hend => exact .inl ⟨next, hover.renewed, hend⟩
  | free hfree => exact .inr (h.free_cleared hover hfree)
  | arms id₀ hfree hstatus hactive => exact .inr (h.arms_cleared hover hfree hstatus hactive)
  | settles rev₀ n₀ id₀ active result hactive hstored =>
    exact .inr (h.settles_cleared hover hbefore hactive (hstores _ _ hstored))

theorem Moves.owner_other {phase' : Phase} (hmove : Moves cur next (phase e.task) phase')
    (hrun : next.runId = cur.runId) {j : ι} {run id : UUID} {rev : Nat}
    {issued : Option (Nat × Transported)} (hne : run ≠ cur.runId)
    (hj : Function.update phase e.task phase' j = .owner run rev id issued) :
    phase j = .owner run rev id issued := by
  by_cases hje : j = e.task
  · rw [hje, Function.update_self] at hj
    rw [hje]
    generalize phase e.task = before at hmove
    cases hmove with
    | ends _ _ => exact hj
    | free _ => cases hj
    | arms _ _ _ _ =>
      cases hj
      exact absurd hrun hne
    | settles _ _ _ _ _ _ _ => cases hj
  · rw [Function.update_of_ne hje] at hj
    exact hj

/-- A commit makes no transport call, so an owner that made one is an old one. -/
theorem Moves.owner_issued {phase' : Phase} (hmove : Moves cur next (phase e.task) phase') {j : ι}
    {run id : UUID} {rev n : Nat} {outcome : Transported}
    (hj : Function.update phase e.task phase' j = .owner run rev id (some (n, outcome))) :
    phase j = .owner run rev id (some (n, outcome)) := by
  by_cases hje : j = e.task
  · rw [hje, Function.update_self] at hj
    rw [hje]
    generalize phase e.task = before at hmove
    cases hmove with
    | ends _ _ => exact hj
    | free _ => cases hj
    | arms _ _ _ _ => cases hj
    | settles _ _ _ _ _ _ _ => cases hj
  · rw [Function.update_of_ne hje] at hj
    exact hj

/-- The task that commits over one Run still owns what it owned of another. -/
theorem Moves.keeps_other {phase' : Phase} (hmove : Moves cur next (phase e.task) phase') {j : ι}
    {run id : UUID} {rev : Nat} {issued : Option (Nat × Transported)} (hne : run ≠ cur.runId)
    (hj : phase j = .owner run rev id issued) :
    Function.update phase e.task phase' j = .owner run rev id issued := by
  by_cases hje : j = e.task
  · rw [hje] at hj ⊢
    rw [Function.update_self]
    rw [hj] at hmove
    cases hmove with
    | ends _ _ => rfl
    | settles _ _ _ _ _ _ _ => exact absurd rfl hne
  · rw [Function.update_of_ne hje]
    exact hj

theorem Phases.commit {phase' : Phase} (h : Phases r log phase) (hover : Overwrites r r' cur next)
    (htransport : transport e.op e.reply = none)
    (hstores : ∀ id result, (∃ inv ∈ next.invocations, inv.id = id ∧ inv.result = some result) →
      Stores cur.runId id result e.op e.reply)
    (hmove : Moves cur next (phase e.task) phase') :
    Phases r' (log ++ [e]) (Function.update phase e.task phase') := by
  have hhere := h.commit_cleared hover hstores hmove
  refine ⟨?_, ?_, ?_, ?_⟩
  · intro j run rev id issued hj
    by_cases hr : run = cur.runId
    · rw [hr] at hj ⊢
      rcases hhere with ⟨s, hs, hterminal⟩ | hcleared
      · exact ⟨s, hs, .inl hterminal⟩
      · exact (hcleared.owner j rev id issued hj).2.1
    · exact hover.owned hr (h.owned j run rev id issued (hmove.owner_other hover.runId hr hj))
  · intro j k run rev id issued rev' id' issued' hj hk hne
    by_cases hr : run = cur.runId
    · rw [hr] at hj hk ⊢
      rcases hhere with hterminal | hcleared
      · exact hterminal
      · have hj' := (hcleared.owner j _ _ _ hj).1
        have hk' := (hcleared.owner k _ _ _ hk).1
        exact absurd (hj'.trans hk'.symm) hne
    · exact hover.terminal (h.unique j k _ _ _ _ _ _ _ (hmove.owner_other hover.runId hr hj)
        (hmove.owner_other hover.runId hr hk) hne)
  · intro j run rev id n outcome hj
    obtain ⟨x, hx, htask, htr⟩ := h.issued j run rev id n outcome (hmove.owner_issued hj)
    exact ⟨x, entry_append hx e, htask, htr⟩
  · intro n x run id outcome hx htr
    rcases entry_append_cases hx with hx | ⟨-, rfl⟩
    · by_cases hr : run = cur.runId
      · rw [hr] at htr ⊢
        rcases hhere with hterminal | hcleared
        · exact .inr (.inl hterminal)
        · exact .inl (hcleared.committed n x id outcome hx htr)
      · rcases h.covered n x run id outcome hx htr with hcommitted | hterminal | ⟨rev, ho⟩
        · exact .inl (hcommitted.append e)
        · exact .inr (.inl (hover.terminal hterminal))
        · exact .inr (.inr ⟨rev, hmove.keeps_other hr ho⟩)
    · rw [htransport] at htr
      cases htr

end

/-! ## The programs of the strategy -/

theorem read_update (ghost : ι → Ghost) (i : ι) (g : Ghost) :
    (fun j => (Function.update ghost i g j).read) =
      Function.update (fun j => (ghost j).read) i g.read := by
  funext j
  by_cases h : j = i
  · subst h
    simp
  · simp [Function.update_of_ne h]

theorem phase_update (ghost : ι → Ghost) (i : ι) (g : Ghost) :
    (fun j => (Function.update ghost i g j).phase) =
      Function.update (fun j => (ghost j).phase) i g.phase := by
  funext j
  by_cases h : j = i
  · subst h
    simp
  · simp [Function.update_of_ne h]

section Safety

variable (env : FlowEnv) (i : ι)

/-- No operation of the program is a transport call or stores a snapshot. -/
def Neutral {α : Type} : FlowProg α → Prop
  | .call o k => (∀ w, (env.exec o w).2.repo.states = w.repo.states) ∧
      (∀ r, transport o r = none) ∧ ∀ r, Neutral (k r)
  | _ => True

/-- Such a program keeps the phase, beside what is known of its reads. -/
theorem neutral_safe {α : Type} {Q : α → Option FlowRunState → Prop}
    {E : FlowError → Option FlowRunState → Prop} {p : FlowProg α} {read : Option FlowRunState}
    (hp : (logOutline ι).Safe env.exec i Q E p read) (hn : Neutral env p) (phase : Phase) :
    (transportOutline ι).Safe env.exec i (fun a g => Q a g.read ∧ g.phase = phase)
      (fun e g => E e g.read ∧ g.phase = phase) p ⟨read, phase⟩ := by
  induction p generalizing read with
  | ret a => exact ⟨hp, rfl⟩
  | raise e => exact ⟨hp, rfl⟩
  | call o k ih =>
    intro w log ghost hg hI _
    obtain ⟨read', -, hI', hk⟩ := hp w log (fun j => (ghost j).read) (congrArg Ghost.read hg)
      hI.1 trivial
    refine ⟨⟨read', phase⟩, trivial, ⟨by rw [read_update]; exact hI', ?_⟩, ih _ hk (hn.2.2 _)⟩
    have hsame : Function.update (fun j => (ghost j).phase) i phase = fun j => (ghost j).phase := by
      rw [show phase = (ghost i).phase by rw [hg]]
      exact Function.update_eq_self i fun j => (ghost j).phase
    rw [phase_update, hsame]
    exact hI.2.quiet (hn.1 w) (hn.2.1 _)

theorem get_states (w : FlowWorld) (reader : Reader) (runId : UUID) :
    (env.exec (.get reader runId) w).2.repo.states = w.repo.states := by
  rcases w.repo.get_cases runId with ⟨-, hget⟩ | ⟨_, -, hget⟩ <;>
    simp [FlowEnv.exec, FlowEnv.reply, hget]

theorem neutral_ofExcept {α : Type} (x : Except FlowError α) :
    Neutral env (Prog.ofExcept x : FlowProg α) := by
  cases x <;> trivial

theorem read_transport_safe (reader : Reader) (runId : UUID) (g : Ghost) :
    (transportOutline ι).Safe env.exec i
      (fun cur g' => g' = ⟨some cur, g.phase⟩ ∧ cur.runId = runId ∧ ActiveLast cur)
      (fun _ g' => g'.phase = g.phase) (FlowLifecycle.read reader runId) g := by
  refine (neutral_safe env i (read_safe env i reader runId g.read) ?_ g.phase).mono ?_
    fun _ _ h => h.2
  · exact ⟨fun w => get_states env w reader runId, fun _ => rfl, neutral_ofExcept env⟩
  · rintro cur ⟨_, _⟩ ⟨⟨hread, hrest⟩, hphase⟩
    dsimp only at hread hphase
    subst hread hphase
    exact ⟨rfl, hrest⟩

/-- A lifecycle operation whose transitions describe what they do and move the phase as
`after` says. -/
theorem transact_transport_safe (lc : FlowLifecycle) (reader : Reader) (runId : UUID)
    {transition : FlowRunState → Except FlowError Transition} {phase : Phase}
    (after : FlowRunState → Phase)
    (hdesc : ∀ cur t, ActiveLast cur → cur.runId = runId → transition cur = .ok t →
      Describes cur t ∧ Moves cur t.state phase (after t.state))
    {g : Ghost} (hg : g.phase = phase) :
    (transportOutline ι).Safe env.exec i
      (fun s g' => g'.phase = after s ∧ s.runId = runId ∧
        ∃ cur t, transition cur = .ok t ∧ t.state = s)
      (fun _ g' => g'.phase = phase) (lc.transact reader runId transition) g := by
  subst hg
  refine (read_transport_safe env i reader runId g).bind ?_
  rintro cur _ ⟨rfl, hrun, hlast⟩
  cases ht : transition cur with
  | error e => rfl
  | ok t =>
    cases htok : lc.executionTokenFor t.leaseRun with
    | error e => simp [htok, Outline.Safe]
    | ok token =>
      obtain ⟨hd, hmove⟩ := hdesc cur t hlast hrun ht
      simp only [Prog.bind_eq, Prog.ofExcept_ok, Prog.ret_bind, htok]
      intro w log ghost hghost hI _
      rcases commit_step env i hI.1 (by rw [hghost]) hd token with
        ⟨e, hreply, hrepo, hI'⟩ | ⟨added, hreply, hcur, hstates, hI'⟩
      · refine ⟨⟨some cur, g.phase⟩, trivial, ⟨by rw [read_update]; exact hI', ?_⟩, ?_⟩
        · have hsame : Function.update ghost i ⟨some cur, g.phase⟩ = ghost := by
            rw [← hghost, Function.update_eq_self]
          rw [hsame]
          exact hI.2.quiet (by rw [hrepo]) rfl
        · rw [hreply]
          rfl
      · refine ⟨⟨none, after t.state⟩, trivial, ⟨by rw [read_update]; exact hI', ?_⟩, ?_⟩
        · rw [phase_update]
          refine hI.2.commit ⟨hcur, hd.open_, hd.runId, hstates⟩ rfl ?_ ?_
          · intro id result hinv
            rw [hreply]
            exact ⟨hd.runId, hinv⟩
          · rw [hghost]
            exact hmove
        · rw [hreply]
          exact ⟨rfl, hd.runId.trans hrun, cur, t, ht, rfl⟩

def Keeps {α : Type} (p : FlowProg α) : Prop :=
  ∀ g, (transportOutline ι).Safe env.exec i (fun _ g' => g'.phase = g.phase)
    (fun _ g' => g'.phase = g.phase) p g

section Keeps

variable {env} {i}

theorem Keeps.ret {α : Type} (a : α) : Keeps env i (.ret a) := fun _ => rfl

theorem Keeps.raise {α : Type} (e : FlowError) : Keeps env i (.raise e : FlowProg α) :=
  fun _ => rfl

theorem Keeps.ofExcept {α : Type} (x : Except FlowError α) : Keeps env i (Prog.ofExcept x) := by
  cases x with
  | error e => exact Keeps.raise e
  | ok a => exact Keeps.ret a

theorem Keeps.bind {α β : Type} {p : FlowProg α} {f : α → FlowProg β} (hp : Keeps env i p)
    (hf : ∀ a, Keeps env i (f a)) : Keeps env i (p.bind f) := by
  intro g
  refine (hp g).bind fun a g' hg' => ?_
  exact (hf a g').mono (fun _ _ h => h.trans hg') fun _ _ h => h.trans hg'

/-- A program that keeps the log refined and neither stores nor transports anything. -/
theorem Keeps.neutral {α : Type} {p : FlowProg α}
    (hp : ∀ read, (logOutline ι).Safe env.exec i (fun _ _ => True) (fun _ _ => True) p read)
    (hn : Neutral env p) : Keeps env i p := fun g =>
  (neutral_safe env i (hp g.read) hn g.phase).mono (fun _ _ h => h.2) fun _ _ h => h.2

theorem Keeps.call {α : Type} (o : FlowOp) {k : o.Ret → FlowProg α}
    (hrepo : ∀ w, (env.exec o w).2.repo = w.repo)
    (hcommit : ∀ runId r, acceptedCommit runId o r = false) (htransport : ∀ r, transport o r = none)
    (hk : ∀ r, Keeps env i (k r)) : Keeps env i (.call o k) := by
  have hawait : Keeps env i (.call o .ret : FlowProg o.Ret) :=
    Keeps.neutral
      (quiet_safe env i o (fun w => by rw [hrepo w]; exact ⟨rfl, rfl⟩) hcommit
        fun _ _ => trivial)
      ⟨fun w => by rw [hrepo w], htransport, fun _ => trivial⟩
  exact hawait.bind hk

theorem Keeps.clock : Keeps env i SequentialFlowStrategy.clock :=
  Keeps.call .clock (fun _ => rfl) (fun _ _ => rfl) (fun _ => rfl) Keeps.ret

theorem Keeps.uuid4 : Keeps env i uuid4 :=
  Keeps.call .uuid4 (fun _ => rfl) (fun _ _ => rfl) (fun _ => rfl) Keeps.ret

theorem Keeps.get (runId : UUID) (reader : Reader) :
    Keeps env i (FlowLifecycle.get runId reader) := fun g =>
  (read_transport_safe env i reader runId g).mono (fun _ _ h => by rw [h.1]) fun _ _ h => h

theorem Keeps.terminate (lc : FlowLifecycle) (runId : UUID) (ending : Termination)
    (error : String) (metadata : List (String × JsonValue)) :
    Keeps env i (lc.terminate runId ending error metadata) := by
  intro g
  refine (transact_transport_safe env i lc .terminate runId (fun _ => g.phase) ?_ rfl).mono
    (fun _ _ h => h.1) fun _ _ h => h
  intro cur t _ _ ht
  refine ⟨terminateTransition_describes ht, .ends _ ?_⟩
  obtain ⟨state, hs, h'⟩ := Except.bind_ok.mp ht
  obtain ⟨_, -, ht'⟩ := Except.bind_ok.mp h'
  obtain ⟨-, -, _, -, rfl⟩ := FlowRunState.terminate_ok hs
  obtain rfl := Except.ok.inj ht'
  cases ending <;> rfl

theorem Keeps.record (lc : FlowLifecycle) (runId : UUID) (invocation : AgentInvocation)
    (errorType : String) :
    Keeps env i (lc.recordCancellationPropagationFailure runId invocation errorType) := by
  refine Keeps.neutral
    (recordCancellationPropagationFailure_safe env i lc runId invocation errorType) ?_
  refine ⟨fun w => get_states env w _ runId, fun _ => rfl, fun r => ?_⟩
  cases r with
  | error e => trivial
  | ok cur =>
    cases htok : lc.executionTokenFor runId with
    | error e => simp [Neutral]
    | ok token =>
      simp only [Prog.bind_eq, Prog.ofExcept_ok, Prog.ret_bind]
      refine ⟨fun w => ?_, fun _ => rfl, fun r => ?_⟩
      · rcases w.repo.appendEvents_cases (env.repositoryClock w.steps) runId cur.revision
          [propagationFailureDraft invocation errorType cur] token with ⟨e, h⟩ | ⟨_, -, -, -, -, h⟩
        · simp [FlowEnv.exec, FlowEnv.reply, h]
        · simp [FlowEnv.exec, FlowEnv.reply, h, InMemoryFlowRepository.extend]
      · cases r <;> trivial

theorem Keeps.create (definition : FlowDefinition) (runId : Option UUID) (now : Time) :
    Keeps env i (FlowLifecycle.create definition runId now) := by
  have hcreate : ∀ deadlineAt, definition.budget.deadline now = .ok deadlineAt → ∀ runId, Keeps env i
      (.call (.create (FlowRunState.initial definition runId now deadlineAt)
        [createdDraft (FlowRunState.initial definition runId now deadlineAt)]) fun r =>
          (Prog.ofExcept r).bind fun _ =>
            .ret (FlowRunState.initial definition runId now deadlineAt)) := by
    intro deadlineAt hdeadline runId g w log ghost hg hI _
    have hsafe := create_safe env i definition (some runId) now g.read
    unfold FlowLifecycle.create at hsafe
    rw [hdeadline] at hsafe
    obtain ⟨read, -, hI', -⟩ := hsafe w log
      (fun j => (ghost j).read) (congrArg Ghost.read hg) hI.1 trivial
    have hsame : Function.update (fun j => (ghost j).phase) i g.phase = fun j => (ghost j).phase := by
      rw [← hg]
      exact Function.update_eq_self i fun j => (ghost j).phase
    refine ⟨⟨read, g.phase⟩, trivial, ⟨by rw [read_update]; exact hI', ?_⟩, ?_⟩
    · rw [phase_update, hsame]
      rcases w.repo.create_cases (FlowRunState.initial definition runId now deadlineAt)
        [createdDraft (FlowRunState.initial definition runId now deadlineAt)] with ⟨e, hc⟩ | ⟨-, -, hnone, hc⟩
      · exact hI.2.quiet (by simp [FlowEnv.exec, FlowEnv.reply, hc]) rfl
      · have hstates : (env.exec (.create (FlowRunState.initial definition runId now deadlineAt)
            [createdDraft (FlowRunState.initial definition runId now deadlineAt)]) w).2.repo.states =
            Function.update w.repo.states runId (some (FlowRunState.initial definition runId now deadlineAt)) := by
          simp [FlowEnv.exec, FlowEnv.reply, hc]
        exact hI.2.added hnone hstates rfl
    · generalize (env.exec (.create (FlowRunState.initial definition runId now deadlineAt)
        [createdDraft (FlowRunState.initial definition runId now deadlineAt)]) w).1 = reply
      exact (Keeps.ofExcept reply).bind (fun _ => Keeps.ret _) ⟨read, g.phase⟩
  unfold FlowLifecycle.create
  cases hdeadline : definition.budget.deadline now with
  | error e => exact Keeps.raise e
  | ok deadlineAt =>
    cases runId with
    | some runId => exact hcreate deadlineAt hdeadline runId
    | none => exact Keeps.uuid4.bind (hcreate deadlineAt hdeadline)

variable (st : SequentialFlowStrategy)

theorem Keeps.resultOf {p : FlowProg FlowRunState} (hp : Keeps env i p) :
    Keeps env i (SequentialFlowStrategy.resultOf p) :=
  hp.bind fun _ => Keeps.ofExcept _

theorem Keeps.terminalAfterRace (runId : UUID) :
    Keeps env i (SequentialFlowStrategy.terminalAfterRace runId) := by
  refine (Keeps.get runId _).bind fun cur => ?_
  split
  · exact (Keeps.ofExcept _).bind fun _ => Keeps.ret _
  · exact Keeps.ret _

theorem Keeps.propagateCancellation (invocation : AgentInvocation) (reason : String) :
    Keeps env i (st.propagateCancellation invocation reason) := by
  unfold SequentialFlowStrategy.propagateCancellation
  split
  · refine Keeps.call _ (fun _ => rfl) (fun _ _ => rfl) (fun _ => rfl) fun r => ?_
    split
    · exact Keeps.ret _
    · exact Keeps.raise _
    · exact Keeps.record _ _ _ _
  · exact Keeps.record _ _ _ _

theorem Keeps.propagateIf (active : Option AgentInvocation) (wanted : AgentInvocation → Bool)
    (reason : String) : Keeps env i (st.propagateIf active wanted reason) := by
  unfold SequentialFlowStrategy.propagateIf
  split
  · split
    · exact Keeps.propagateCancellation st _ _
    · exact Keeps.ret _
  · exact Keeps.ret _

theorem Keeps.reachBudgetLimit (runId : UUID) (violation : FlowBudgetExceeded) :
    Keeps env i (st.reachBudgetLimit runId violation) := by
  refine (Keeps.get runId _).bind fun cur => ?_
  split
  · exact Keeps.ofExcept _
  · exact (Keeps.terminate _ _ _ _ _).bind fun limited =>
      (Keeps.propagateIf st _ _ _).bind fun _ => Keeps.ofExcept _

theorem Keeps.timeoutLimit (s : FlowRunState) : Keeps env i (st.timeoutLimit s) :=
  Keeps.clock.bind fun _ => (Keeps.ofExcept _).bind fun _ => (Keeps.ofExcept _).bind fun _ =>
    Keeps.reachBudgetLimit st _ _

theorem Keeps.transportFailure (runId : UUID) (agentKey operation errorType error : String) :
    Keeps env i (st.transportFailure runId agentKey operation errorType error) := by
  refine (Keeps.terminalAfterRace runId).bind fun terminal => ?_
  split
  · exact Keeps.ret _
  · exact Keeps.resultOf (Keeps.terminate _ _ _ _ _)

theorem Keeps.handleOutcome (s : FlowRunState) (result : AgentInvocationResult) :
    Keeps env i (st.handleOutcome s result) := by
  unfold SequentialFlowStrategy.handleOutcome
  split
  · exact Keeps.ret _
  · exact (Keeps.ofExcept _).bind fun _ => Keeps.ret _
  · exact (Keeps.resultOf (Keeps.terminate _ _ _ _ _)).bind fun _ => Keeps.ret _

theorem Keeps.cancel (runId : UUID) (reason : String) : Keeps env i (st.cancel runId reason) := by
  refine (Keeps.ofExcept _).bind fun _ => (Keeps.ofExcept _).bind fun _ => ?_
  refine (Keeps.get runId _).bind fun cur => ?_
  split
  · exact Keeps.ofExcept _
  · split
    · exact Keeps.raise _
    · exact (Keeps.terminate _ _ _ _ _).bind fun cancelled =>
        (Keeps.propagateIf st _ _ _).bind fun _ => Keeps.ofExcept _

theorem Keeps.settleFailed (runId : UUID) (agentKey operation : String) (e : FlowError) :
    Keeps env i (st.settleFailed runId agentKey operation e) := by
  unfold SequentialFlowStrategy.settleFailed
  split
  · refine (Keeps.terminalAfterRace runId).bind fun terminal => ?_
    cases terminal with
    | some terminal => exact Keeps.ret _
    | none => exact Keeps.raise _
  · split
    · exact Keeps.transportFailure st _ _ _ _ _
    · exact Keeps.raise _

end Keeps

abbrev Ends {α : Type} (p : FlowProg α) (g : Ghost) : Prop :=
  (transportOutline ι).Safe env.exec i (fun _ _ => True) (fun _ _ => True) p g

theorem Keeps.ends {α : Type} {p : FlowProg α} {env : FlowEnv} {i : ι} (h : Keeps env i p)
    (g : Ghost) : Ends env i p g :=
  (h g).mono (fun _ _ _ => trivial) fun _ _ _ => trivial

theorem Keeps.then_ends {α β : Type} {p : FlowProg α} {f : α → FlowProg β} {env : FlowEnv} {i : ι}
    {g : Ghost} (hp : Keeps env i p)
    (hf : ∀ a g', g'.phase = g.phase → Ends env i (f a) g') : Ends env i (p.bind f) g :=
  ((hp g).mono (fun _ _ h => h) fun _ _ _ => trivial).bind hf

theorem start_transport_safe (lc : FlowLifecycle) (runId : UUID) {g : Ghost}
    (hg : g.phase = .idle) :
    (transportOutline ι).Safe env.exec i (fun s g' => g'.phase = .idle ∧ s.runId = runId)
      (fun _ _ => True) (lc.start runId) g := by
  refine (transact_transport_safe env i lc .start runId (fun _ => .idle) ?_ hg).mono
    (fun _ _ h => ⟨h.1, h.2.1⟩) fun _ _ _ => trivial
  intro cur t hlast _ ht
  refine ⟨startTransition_describes ht hlast, .free ?_⟩
  obtain ⟨state, hs, -⟩ := Except.bind_ok.mp ht
  rw [(FlowRunState.start_ok hs).1]
  simp

theorem complete_transport_safe (lc : FlowLifecycle) (runId : UUID) (output : String) {g : Ghost}
    (hg : g.phase = .idle) : Ends env i (lc.complete runId output) g := by
  refine (transact_transport_safe env i lc .complete runId (fun _ => .idle) ?_ hg).mono
    (fun _ _ _ => trivial) fun _ _ _ => trivial
  intro cur t _ _ ht
  refine ⟨completeTransition_describes ht, .free ?_⟩
  obtain ⟨state, hs, -⟩ := Except.bind_ok.mp ht
  rw [(FlowRunState.complete_ok hs).2.1]
  simp

theorem begin_transport_safe (lc : FlowLifecycle) (runId : UUID) (request : AgentInvocationRequest)
    (definition : FlowDefinition) {g : Ghost} (hg : g.phase = .idle) :
    (transportOutline ι).Safe env.exec i
      (fun s g' => g'.phase = .owner runId s.revision request.invocationId none ∧
        s.runId = runId ∧ request.flowRunId = runId)
      (fun _ _ => True) (lc.beginInvocation runId request definition) g := by
  refine (transact_transport_safe env i lc .beginInvocation runId
    (fun s => .owner s.runId s.revision request.invocationId none) ?_ hg).mono ?_
    fun _ _ _ => trivial
  · intro cur t _ _ ht
    refine ⟨beginTransition_describes ht, ?_⟩
    obtain ⟨state, hs, h'⟩ := Except.bind_ok.mp ht
    obtain ⟨_, -, ht'⟩ := Except.bind_ok.mp h'
    obtain rfl := Except.ok.inj ht'
    obtain ⟨hstatus, hnone, -, -, -, -, rfl⟩ := FlowRunState.beginInvocation_ok hs
    exact .arms _ (by simp [hnone]) hstatus rfl
  · rintro s g' ⟨hphase, hrun, cur, t, ht, rfl⟩
    obtain ⟨state, hs, h'⟩ := Except.bind_ok.mp ht
    obtain ⟨_, -, ht'⟩ := Except.bind_ok.mp h'
    obtain rfl := Except.ok.inj ht'
    obtain ⟨-, -, -, hreq, -, -, rfl⟩ := FlowRunState.beginInvocation_ok hs
    exact ⟨by rw [hphase, hrun], hrun, hreq.trans hrun⟩

theorem resume_transport_safe (lc : FlowLifecycle) (runId invocationId : UUID) {g : Ghost}
    (hg : g.phase = .idle) :
    (transportOutline ι).Safe env.exec i
      (fun s g' => g'.phase = .owner runId s.revision invocationId none)
      (fun _ _ => True) (lc.resumeInvocation runId invocationId) g := by
  refine (transact_transport_safe env i lc .resumeInvocation runId
    (fun s => .owner s.runId s.revision invocationId none) ?_ hg).mono
    (fun _ _ h => by rw [h.1, h.2.1]) fun _ _ _ => trivial
  intro cur t hlast _ ht
  refine ⟨resumeTransition_describes ht hlast, ?_⟩
  obtain ⟨state, hs, h'⟩ := Except.bind_ok.mp ht
  obtain ⟨_, -, ht'⟩ := Except.bind_ok.mp h'
  obtain rfl := Except.ok.inj ht'
  obtain ⟨hwait, active, resumed, hactive, hid, -, rfl⟩ := FlowRunState.resumeInvocation_ok hs
  refine .arms _ (by simp [hwait]) rfl ?_
  rw [← hid]
  exact (FlowRunState.activeInvocation_id hactive).1

theorem settle_transport_safe (lc : FlowLifecycle) (runId : UUID) (result : AgentInvocationResult)
    {rev n : Nat} {id : UUID} {g : Ghost}
    (hg : g.phase = .owner runId rev id (some (n, .result result))) :
    (transportOutline ι).Safe env.exec i (fun _ g' => g'.phase = .idle) (fun _ _ => True)
      (lc.settleInvocation runId result) g := by
  refine (transact_transport_safe env i lc .settleInvocation runId (fun _ => .idle) ?_ hg).mono
    (fun _ _ h => h.1) fun _ _ _ => trivial
  intro cur t hlast hrun ht
  refine ⟨settleTransition_describes ht hlast, ?_⟩
  obtain ⟨state, hs, h'⟩ := Except.bind_ok.mp ht
  obtain ⟨_, -, ht'⟩ := Except.bind_ok.mp h'
  obtain rfl := Except.ok.inj ht'
  obtain ⟨-, active, settled, hactive, hsettle, rfl⟩ := FlowRunState.settleInvocation_ok hs
  obtain ⟨-, -, -, -, hsettled⟩ := AgentInvocation.settle_ok hsettle
  obtain ⟨hact, hmem⟩ := FlowRunState.activeInvocation_id hactive
  have hid : settled.id = active.id := by rw [hsettled]
  subst hrun
  refine .settles rev n id active.id result hact ⟨settled, ?_, hid, by rw [hsettled]⟩
  exact List.mem_map.mpr ⟨active, hmem, by simp [hid]⟩

theorem issue_safe {α : Type} {o : FlowOp} {k : o.Ret → FlowProg α} {runId : UUID} {rev : Nat}
    {id : UUID} {g : Ghost} (hg : g.phase = .owner runId rev id none)
    (hrepo : ∀ w, (env.exec o w).2.repo = w.repo)
    (hcommit : ∀ run r, acceptedCommit run o r = false)
    (hk : ∀ r, ∃ outcome, transport o r = some (runId, id, outcome) ∧ ∀ g' n,
      g'.phase = .owner runId rev id (some (n, outcome)) → Ends env i (k r) g') :
    Ends env i (.call o k) g := by
  intro w log ghost hghost hI _
  obtain ⟨outcome, htr, hcont⟩ := hk (env.exec o w).1
  refine ⟨⟨g.read, .owner runId rev id (some (log.length, outcome))⟩, trivial, ⟨?_, ?_⟩,
    hcont _ log.length rfl⟩
  · rw [read_update]
    refine logOutline_quiet hI.1 (by rw [hrepo w]) (by rw [hrepo w]) (fun run => hcommit run _) ?_
    intro read hread
    exact hI.1.2 i read ((congrArg Ghost.read hghost).trans hread)
  · rw [phase_update, hrepo w]
    have hphase : (ghost i).phase = .owner runId rev id none := by rw [hghost, hg]
    exact Phases.issue (e := ⟨i, o, (env.exec o w).1⟩) hI.2 hphase htr

variable (st : SequentialFlowStrategy)

theorem afterTransport_safe (state : FlowRunState) (runId : UUID)
    (agentKey operation interrupted : String)
    {continueWith : FlowRunState → AgentInvocationResult → FlowProg FlowResult}
    (hcont : ∀ s r g, g.phase = .idle → Ends env i (continueWith s r) g)
    {outcome : Transported} {rev n : Nat} {id : UUID} {g : Ghost}
    (hg : g.phase = .owner runId rev id (some (n, outcome))) :
    Ends env i (st.afterTransport state runId agentKey operation interrupted continueWith outcome)
      g := by
  cases outcome with
  | timeout => exact (Keeps.timeoutLimit st state).ends g
  | cancelled => exact ((Keeps.terminate _ _ _ _ _).bind fun _ => Keeps.raise _).ends g
  | raised errorType message => exact (Keeps.transportFailure st _ _ _ _ _).ends g
  | result result =>
    have hsettle : (transportOutline ι).Safe env.exec i
        (fun outcome g' => ∀ s, outcome = .ok s → g'.phase = .idle) (fun _ _ => True)
        ((st.lifecycle.settleInvocation runId result).attempt :
          FlowProg (Except FlowError FlowRunState)) g :=
      (settle_transport_safe env i st.lifecycle runId result hg).attempt
        (fun _ _ h _ _ => h) fun _ _ _ _ h => by cases h
    refine hsettle.bind fun settled g' hg' => ?_
    cases settled with
    | error e => exact (Keeps.settleFailed st runId agentKey operation e).ends g'
    | ok s =>
      refine Keeps.clock.then_ends fun now g₁ hg₁ => ?_
      refine (Keeps.ofExcept _).then_ends fun violation g₂ hg₂ => ?_
      cases violation with
      | some violation => exact (Keeps.reachBudgetLimit st _ _).ends g₂
      | none =>
        refine (Keeps.handleOutcome st s result).then_ends fun terminal g₃ hg₃ => ?_
        cases terminal with
        | some terminal => trivial
        | none => exact hcont s result g₃ (by rw [hg₃, hg₂, hg₁, hg' s rfl])

/-- The loop starts from a task that owns nothing, and each iteration ends so. -/
theorem advance_safe (definition : FlowDefinition) (input : FlowInput) (fuel : Nat)
    (state : FlowRunState) (previous : Option AgentInvocationResult) {g : Ghost}
    (hg : g.phase = .idle) : Ends env i (st.advance definition input fuel state previous) g := by
  induction fuel generalizing state previous g with
  | zero =>
    unfold SequentialFlowStrategy.advance
    cases definition.agents[state.invocations.length]? with
    | some binding => trivial
    | none =>
      refine (Keeps.ofExcept _).then_ends fun previous g₁ hg₁ => ?_
      exact (complete_transport_safe env i _ _ _ (hg₁.trans hg)).bind fun _ g₂ _ =>
        (Keeps.ofExcept _).ends g₂
  | succ fuel ih =>
    unfold SequentialFlowStrategy.advance
    cases definition.agents[state.invocations.length]? with
    | none =>
      refine (Keeps.ofExcept _).then_ends fun previous g₁ hg₁ => ?_
      exact (complete_transport_safe env i _ _ _ (hg₁.trans hg)).bind fun _ g₂ _ =>
        (Keeps.ofExcept _).ends g₂
    | some binding =>
      refine Keeps.clock.then_ends fun now g₁ hg₁ => ?_
      refine (Keeps.ofExcept _).then_ends fun violation g₂ hg₂ => ?_
      cases violation with
      | some violation => exact (Keeps.reachBudgetLimit st _ _).ends g₂
      | none =>
        refine Keeps.uuid4.then_ends fun id g₃ hg₃ => ?_
        refine (Keeps.ofExcept _).then_ends fun request g₄ hg₄ => ?_
        have hidle : g₄.phase = .idle := by rw [hg₄, hg₃, hg₂, hg₁, hg]
        refine (begin_transport_safe env i st.lifecycle state.runId request definition hidle).bind ?_
        rintro begun g₅ ⟨hphase, hrun, hreq⟩
        refine Keeps.clock.then_ends fun now g₆ hg₆ => ?_
        refine issue_safe env i (hg₆.trans hphase) (fun _ => rfl) (fun _ _ => rfl) fun outcome =>
          ⟨outcome, by rw [← hreq]; rfl, fun g' n hg' => ?_⟩
        rw [hrun]
        exact afterTransport_safe env i st begun state.runId binding.key "invoke" _
          (fun s r g hg => ih s (some r) hg) hg'

theorem run_safe (definition : FlowDefinition) (input : FlowInput) (runId : Option UUID) {g : Ghost}
    (hg : g.phase = .idle) : Ends env i (st.run definition input runId) g := by
  refine (Keeps.ofExcept _).then_ends fun _ g₁ hg₁ => ?_
  refine Keeps.clock.then_ends fun now g₂ hg₂ => ?_
  refine (Keeps.create definition runId now).then_ends fun created g₃ hg₃ => ?_
  refine (start_transport_safe env i st.lifecycle created.runId
    (by rw [hg₃, hg₂, hg₁, hg])).bind fun started g₄ hg₄ => ?_
  exact advance_safe env i st definition input _ started none hg₄.1

theorem resumeWaiting_safe (definition : FlowDefinition) (runId : UUID) (userInput : Option String)
    (confirmation : Option ToolConfirmation) {g : Ghost} (hg : g.phase = .idle) :
    Ends env i (st.resumeWaiting definition runId userInput confirmation) g := by
  refine (Keeps.ofExcept _).then_ends fun _ g₁ hg₁ => ?_
  refine (Keeps.get runId _).then_ends fun waiting g₂ hg₂ => ?_
  refine (Keeps.ofExcept _).then_ends fun _ g₃ hg₃ => ?_
  refine Keeps.clock.then_ends fun now g₄ hg₄ => ?_
  refine (Keeps.ofExcept _).then_ends fun violation g₅ hg₅ => ?_
  cases violation with
  | some violation => exact (Keeps.reachBudgetLimit st _ _).ends g₅
  | none =>
    refine (Keeps.ofExcept _).then_ends fun active g₆ hg₆ => ?_
    have hidle : g₆.phase = .idle := by rw [hg₆, hg₅, hg₄, hg₃, hg₂, hg₁, hg]
    refine (resume_transport_safe env i st.lifecycle runId active.id hidle).bind
      fun resumed g₇ hg₇ => ?_
    cases hv : AgentInvocationResume.validate
      { flowRunId := runId, invocationId := active.id, agentKey := active.agentKey,
        userInput := userInput, confirmation := confirmation } with
    | error e => trivial
    | ok request =>
      have hreq : request.flowRunId = runId ∧ request.invocationId = active.id := by
        unfold AgentInvocationResume.validate at hv
        split at hv
        · cases hv
        · split at hv
          · cases hv
          · obtain rfl := Except.ok.inj hv
            exact ⟨rfl, rfl⟩
      refine Keeps.clock.then_ends fun now g₈ hg₈ => ?_
      refine issue_safe env i (hg₈.trans hg₇) (fun _ => rfl) (fun _ _ => rfl) fun outcome =>
        ⟨outcome, by rw [← hreq.1, ← hreq.2]; rfl, fun g' n hg' => ?_⟩
      exact afterTransport_safe env i st waiting runId active.agentKey "resume" _
        (fun s r g hg => advance_safe env i st definition _ _ s (some r) hg) hg'

theorem flowCall_safe (call : FlowCall) {g : Ghost} (hg : g.phase = .idle) :
    Ends env i (call.prog st) g := by
  cases call with
  | run definition input runId => exact run_safe env i st definition input runId hg
  | resume definition runId userInput => exact resumeWaiting_safe env i st _ _ _ _ hg
  | confirm definition runId confirmation => exact resumeWaiting_safe env i st _ _ _ _ hg
  | cancel runId reason => exact (Keeps.cancel st runId reason).ends g

end Safety

/-- The pool of clients calling the strategy on an empty repository. -/
def flowPool (strategy : ι → SequentialFlowStrategy) (calls : ι → FlowCall) :
    Pool ι FlowOp FlowOp.Ret FlowError FlowResult FlowWorld :=
  { shared := {}, tasks := fun i => (calls i).prog (strategy i), log := [] }

theorem flowPool_invariant (env : FlowEnv) (strategy : ι → SequentialFlowStrategy)
    (calls : ι → FlowCall) (schedule : List ι) :
    ∃ ghost, (transportOutline ι).Inv ((flowPool strategy calls).run env.exec schedule).shared
      ((flowPool strategy calls).run env.exec schedule).log ghost := by
  have hinit : Outline.Holds env.exec (transportOutline ι) (fun _ _ _ => True)
      (fun _ _ _ => True) (flowPool strategy calls) fun _ => {} := by
    refine ⟨⟨⟨fun _ => ⟨rfl, rfl⟩, by simp⟩, ?_⟩, fun i => flowCall_safe env i _ _ rfl⟩
    exact ⟨by simp, by simp, by simp, by simp [flowPool]⟩
  obtain ⟨ghost, hholds⟩ := hinit.run_all (fun _ _ _ _ _ => trivial) (fun _ _ => trivial) schedule
  exact ⟨ghost, hholds.1⟩

omit [DecidableEq ι] in
/-- A transport that was not committed leaves its Flow terminal, or running with an active
invocation. -/
theorem uncommitted_active {w : FlowWorld} {log : List (FlowEntry ι)} {ghost : ι → Ghost}
    (hI : (transportOutline ι).Inv w log ghost) {runId : UUID} {s : FlowRunState}
    (hs : w.repo.states runId = some s) (hopen : s.status.terminal = false) {n : Nat}
    (htr : TransportAt log runId n) (hnot : ¬ Committed log n) :
    s.runId = runId ∧ s.status = .running ∧ s.activeInvocation.isSome = true := by
  obtain ⟨e, id, outcome, he, htransport⟩ := htr
  have hrec := hI.1.1 runId
  unfold Recorded at hrec
  rw [hs] at hrec
  rcases hI.2.covered n e runId id outcome he htransport with hc | ⟨s', hs', ht⟩ | ⟨rev, ho⟩
  · exact absurd hc hnot
  · rw [hs] at hs'
    obtain rfl := Option.some.inj hs'
    rw [hopen] at ht
    cases ht
  · obtain ⟨s', hs', ht | ⟨-, hstatus, hactive⟩⟩ := hI.2.owned _ _ _ _ _ ho
    · rw [hs] at hs'
      obtain rfl := Option.some.inj hs'
      rw [hopen] at ht
      cases ht
    · rw [hs] at hs'
      obtain rfl := Option.some.inj hs'
      obtain ⟨active, hfound⟩ := hrec.2.1.found hactive
      exact ⟨hrec.1, hstatus, by rw [hfound]; rfl⟩

theorem recovery_never_repeats_transport (env : FlowEnv) (strategy : ι → SequentialFlowStrategy)
    (calls : ι → FlowCall) (schedule : List ι) (policy : FlowRecoveryPolicy) (runId : UUID)
    (s : FlowRunState) (command : FlowWorkCommand) (sideEffects : List FlowSideEffect) :
    let final := (flowPool strategy calls).run env.exec schedule
    final.shared.repo.states runId = some s →
    (s.status.terminal = false → command.runId = runId → command.kind ≠ .cancel →
      (∃ n, TransportAt final.log runId n ∧ ¬ Committed final.log n) →
      ∃ reason, policy.decide command s sideEffects = .ok ⟨.manualReview, reason⟩) ∧
    (∀ decision, policy.decide command s sideEffects = .ok decision →
      decision.action = .start ∨ decision.action = .advance ∨ decision.action = .resume ∨
        decision.action = .finalize →
      ∀ n, TransportAt final.log runId n → Committed final.log n) := by
  intro final hs
  obtain ⟨ghost, hI⟩ := flowPool_invariant env strategy calls schedule
  have hreview : s.status.terminal = false → command.runId = runId → command.kind ≠ .cancel →
      (∃ n, TransportAt final.log runId n ∧ ¬ Committed final.log n) →
      ∃ reason, policy.decide command s sideEffects = .ok ⟨.manualReview, reason⟩ := by
    rintro hopen hcommand hkind ⟨n, htr, hnot⟩
    obtain ⟨hrun, hstatus, hactive⟩ := uncommitted_active hI hs hopen htr hnot
    exact policy.decide_active (hcommand.trans hrun.symm) hstatus hactive hkind
  refine ⟨hreview, fun decision hdecide haction n htr => ?_⟩
  by_contra hnot
  have hrec := hI.1.1 runId
  unfold Recorded at hrec
  rw [hs] at hrec
  unfold FlowRecoveryPolicy.decide at hdecide
  by_cases hcommand : command.runId = s.runId
  · rw [if_neg (by simpa using hcommand)] at hdecide
    cases hterm : s.status.terminal with
    | true =>
      rw [if_pos hterm] at hdecide
      obtain rfl := Except.ok.inj hdecide
      simp at haction
    | false =>
      rw [if_neg (by simp [hterm])] at hdecide
      by_cases hkind : command.kind = .cancel
      · rw [hkind] at hdecide
        obtain rfl := Except.ok.inj hdecide
        simp at haction
      · obtain ⟨reason, hmanual⟩ :=
          hreview hterm (hcommand.trans hrec.1) hkind ⟨n, htr, hnot⟩
        unfold FlowRecoveryPolicy.decide at hmanual
        rw [if_neg (by simpa using hcommand), if_neg (by simp [hterm]), hdecide] at hmanual
        obtain rfl := Except.ok.inj hmanual
        simp at haction
  · rw [if_pos (by simpa using hcommand)] at hdecide
    cases hdecide

end

def failingEnv : FlowEnv :=
  { clock := fun _ => 0, repositoryClock := fun _ => 0, uuid4 := fun n => n
    invoke := fun _ _ _ => .raised "ConnectionError" "refused"
    resume := fun _ _ _ => .raised "ConnectionError" "refused"
    cancel := fun _ _ => none }

-- The process stops after the transport call, its tenth step.
def crashed : Pool Unit FlowOp FlowOp.Ret FlowError FlowResult FlowWorld :=
  (flowPool (fun _ : Unit => {}) fun _ => .run soloDefinition ⟨"write", []⟩ (some 7)).run
    failingEnv.exec (List.replicate 10 ())

def executeCommand : FlowWorkCommand := { id := 1, runId := 7, idempotencyKey := "key" }

theorem recovery_never_repeats_transport_crash :
    ∃ s reason, crashed.shared.repo.states 7 = some s ∧
      FlowRecoveryPolicy.decide ⟨fun _ => none⟩ executeCommand s [] =
        .ok ⟨.manualReview, reason⟩ := by
  have hview : (crashed.shared.repo.states 7).map (·.status) = some .running := by decide
  have hlength : crashed.log.length = 10 := by decide
  obtain ⟨s, hs, hstatus⟩ := Option.map_eq_some_iff.mp hview
  have hissued : TransportAt crashed.log 7 9 := ⟨_, _, _, rfl, rfl⟩
  have hnot : ¬ Committed crashed.log 9 := by
    rintro ⟨_, _, _, _, m, c, -, -, hlt, hm, -⟩
    have := (List.getElem?_eq_some_iff.mp hm).1
    omega
  obtain ⟨reason, hdecide⟩ :=
    (recovery_never_repeats_transport failingEnv _ _ _ ⟨fun _ => none⟩ 7 s executeCommand [] hs).1
      (by rw [hstatus]; rfl) rfl (by decide) ⟨9, hissued, hnot⟩
  exact ⟨s, reason, hs, hdecide⟩

end Flows
end BaseAgent
