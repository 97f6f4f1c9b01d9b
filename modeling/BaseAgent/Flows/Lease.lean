import BaseAgent.Flows.Repository
import Mathlib.Data.List.Induction
import Mathlib.Data.List.Nodup

/-!
# Execution leases fence writers

Any number of workers call the repository in any order.  Since an operation is
atomic, an interleaving of their calls is a list of timed calls, and `run` is the
repository with the history of calls and replies that the list leaves.

What a worker may believe about its lease is read off the history alone: the last
lease a token was handed (`latest`), whether the token was released, and which
grants came before which.  `Fenced` ties these to the lease records that the
repository keeps, and every call preserves it.
-/

namespace BaseAgent
namespace Flows

/-- The calls workers make on the repository.  `token` is the `uuid4()` an accepted
acquisition draws. -/
inductive RepositoryCall where
  | create (state : FlowRunState) (drafts : List FlowEventDraft)
  | acquire (token runId : UUID) (ownerId : String) (ttlSeconds : ℚ)
  | renew (lease : FlowExecutionLease) (ttlSeconds : ℚ)
  | release (lease : FlowExecutionLease)
  | commit (state : FlowRunState) (expectedRevision : Nat) (drafts : List FlowEventDraft)
      (token : Option UUID)
  | append (runId : UUID) (expectedRevision : Nat) (drafts : List FlowEventDraft)
      (token : Option UUID)

structure TimedCall where
  now : Time
  call : RepositoryCall

/-- Perform a call.  The reply carries the lease of an acquisition or a renewal. -/
def TimedCall.perform (c : TimedCall) (r : InMemoryFlowRepository) :
    Except FlowError (Option FlowExecutionLease) × InMemoryFlowRepository :=
  match c.call with
  | .create state drafts => ((r.create state drafts).1.map fun _ => none, (r.create state drafts).2)
  | .acquire token runId ownerId ttl =>
    let done := r.acquireExecution c.now token runId ownerId ttl
    (done.1.map some, done.2)
  | .renew lease ttl =>
    let done := r.renewExecution c.now lease ttl
    (done.1.map some, done.2)
  | .release lease => ((r.releaseExecution lease).1.map fun _ => none, (r.releaseExecution lease).2)
  | .commit state expected drafts token =>
    let done := r.commit c.now state expected drafts token
    (done.1.map fun _ => none, done.2)
  | .append runId expected drafts token =>
    let done := r.appendEvents c.now runId expected drafts token
    (done.1.map fun _ => none, done.2)

structure Performed where
  call : RepositoryCall
  reply : Except FlowError (Option FlowExecutionLease)

namespace Performed

def granted (p : Performed) : Option FlowExecutionLease :=
  match p.call, p.reply with
  | .acquire .., .ok lease => lease
  | _, _ => none

def handed (token : UUID) (p : Performed) : Option FlowExecutionLease :=
  match p.reply with
  | .ok (some lease) => if lease.token = token then some lease else none
  | _ => none

def releases (token : UUID) (p : Performed) : Bool :=
  match p.call, p.reply with
  | .release lease, .ok _ => lease.token == token
  | _, _ => false

end Performed

namespace History

def grants (h : List Performed) : List FlowExecutionLease := h.filterMap Performed.granted

def latest (h : List Performed) (token : UUID) : Option FlowExecutionLease :=
  (h.filterMap (Performed.handed token)).getLast?

def released (h : List Performed) (token : UUID) : Bool := h.any (Performed.releases token)

/-- A later acquisition of the same Run was accepted. -/
def Superseded (h : List Performed) (token : UUID) : Prop :=
  ∃ g g', [g, g'].Sublist (grants h) ∧ g.token = token ∧ g'.runId = g.runId

/-- The holder of `token` has an unreleased lease on the Run that has not expired at
`now`. -/
def Live (h : List Performed) (runId token : UUID) (now : Time) : Prop :=
  ∃ lease, latest h token = some lease ∧ lease.runId = runId ∧ lease.isExpired now = false ∧
    released h token = false

end History

structure Audited where
  repo : InMemoryFlowRepository := {}
  history : List Performed := []

def Audited.step (s : Audited) (c : TimedCall) : Audited :=
  { repo := (c.perform s.repo).2
    history := s.history ++ [⟨c.call, (c.perform s.repo).1⟩] }

def Audited.run (calls : List TimedCall) : Audited := calls.foldl step {}

def drawnTokens (calls : List TimedCall) : List UUID :=
  calls.filterMap fun c => match c.call with
    | .acquire token .. => some token
    | _ => none

namespace RepositoryCall

def Writes (runId : UUID) (token : Option UUID) : RepositoryCall → Prop
  | .commit state _ _ t => state.runId = runId ∧ t = token
  | .append run _ _ t => run = runId ∧ t = token
  | _ => False

def Renews (token : UUID) : RepositoryCall → Prop
  | .renew lease _ => lease.token = token
  | _ => False

end RepositoryCall

/-! ## One call -/

/-- What a call can do: it raises and changes nothing, it writes without touching a
lease record, or it replaces the lease record of one Run. -/
inductive Effect (r : InMemoryFlowRepository) (c : TimedCall) :
    Except FlowError (Option FlowExecutionLease) → InMemoryFlowRepository → Prop
  | raised (e : FlowError) : Effect r c (.error e) r
  | created (r' : InMemoryFlowRepository) (state : FlowRunState) (drafts : List FlowEventDraft)
      (hcall : c.call = .create state drafts) (hleases : r'.leases = r.leases) :
      Effect r c (.ok none) r'
  | wrote (r' : InMemoryFlowRepository) (runId : UUID) (token : Option UUID)
      (hcall : c.call.Writes runId token)
      (htoken : r.validateExecutionToken runId token c.now = .ok ())
      (hleases : r'.leases = r.leases) : Effect r c (.ok none) r'
  | acquired (token runId : UUID) (ownerId : String) (ttl : ℚ)
      (hcall : c.call = .acquire token runId ownerId ttl)
      (hfree : ∀ prior, r.leases runId = some (prior, true) → prior.isExpired c.now = true) :
      Effect r c (.ok (some (r.grantedLease c.now token runId ownerId ttl)))
        (r.setLease runId (r.grantedLease c.now token runId ownerId ttl) true)
  | renewed (lease current : FlowExecutionLease) (ttl : ℚ) (hcall : c.call = .renew lease ttl)
      (hstored : r.leases lease.runId = some (current, true))
      (htoken : current.token = lease.token) (hlive : current.isExpired c.now = false) :
      Effect r c (.ok (some (current.renewed c.now ttl)))
        (r.setLease lease.runId (current.renewed c.now ttl) true)
  | released (lease current : FlowExecutionLease) (active : Bool)
      (hcall : c.call = .release lease)
      (hstored : r.leases lease.runId = some (current, active))
      (htoken : current.token = lease.token) :
      Effect r c (.ok none) (r.setLease lease.runId current false)

theorem TimedCall.effect (c : TimedCall) (r : InMemoryFlowRepository) :
    Effect r c (c.perform r).1 (c.perform r).2 := by
  unfold TimedCall.perform
  cases hc : c.call with
  | create state drafts =>
    rcases r.create_cases state drafts with ⟨e, h⟩ | ⟨-, -, -, h⟩
    · simp only [h]
      exact .raised e
    · simp only [h]
      exact .created _ state drafts hc rfl
  | acquire token runId ownerId ttl =>
    rcases r.acquireExecution_cases c.now token runId ownerId ttl with ⟨e, h⟩ | ⟨_, -, -, hf, h⟩
    · simp only [h]
      exact .raised e
    · simp only [h]
      exact .acquired token runId ownerId ttl hc hf
  | renew lease ttl =>
    rcases r.renewExecution_cases c.now lease ttl with ⟨e, h⟩ | ⟨current, hl, ht, hx, h⟩
    · simp only [h]
      exact .raised e
    · simp only [h]
      exact .renewed lease current ttl hc hl ht hx
  | release lease =>
    rcases r.releaseExecution_cases lease with ⟨e, h⟩ | ⟨current, active, hl, ht, h⟩
    · simp only [h]
      exact .raised e
    · simp only [h]
      exact .released lease current active hc hl ht
  | commit state expected drafts token =>
    rcases r.commit_cases c.now state expected drafts token with ⟨e, h⟩ | ⟨_, -, -, ht, -, h⟩
    · simp only [h]
      exact .raised e
    · simp only [h]
      exact .wrote _ state.runId token (by rw [hc]; exact ⟨rfl, rfl⟩) ht rfl
  | append runId expected drafts token =>
    rcases r.appendEvents_cases c.now runId expected drafts token with
      ⟨e, h⟩ | ⟨_, -, -, ht, -, h⟩
    · simp only [h]
      exact .raised e
    · simp only [h]
      exact .wrote _ runId token (by rw [hc]; exact ⟨rfl, rfl⟩) ht rfl

/-! ## The history grows by one reply -/

namespace History

theorem grants_append (h : List Performed) (p : Performed) :
    grants (h ++ [p]) = grants h ++ p.granted.toList := by
  unfold grants
  rw [List.filterMap_append]
  cases hp : p.granted with
  | none => simp [hp]
  | some lease => simp [hp]

theorem latest_append (h : List Performed) (p : Performed) (token : UUID) :
    latest (h ++ [p]) token = (p.handed token).or (latest h token) := by
  unfold latest
  rw [List.filterMap_append]
  cases hp : p.handed token with
  | none => simp [hp]
  | some lease => simp [hp]

theorem released_append (h : List Performed) (p : Performed) (token : UUID) :
    released (h ++ [p]) token = (released h token || p.releases token) := by
  simp [released]

end History

open History

/-- The lease records of the repository are what the history says they are, at a
time `clock` that no call of the history is after. -/
structure Fenced (s : Audited) (clock : Time) : Prop where
  distinct : ((grants s.history).map (·.token)).Nodup
  increasing : (grants s.history).Pairwise fun a b => a.runId = b.runId → a.attempt < b.attempt
  recorded : ∀ g ∈ grants s.history, ∃ lease active,
    s.repo.leases g.runId = some (lease, active) ∧ g.attempt ≤ lease.attempt
  stored : ∀ runId lease active, s.repo.leases runId = some (lease, active) →
    lease.runId = runId ∧ latest s.history lease.token = some lease ∧
      (active = !released s.history lease.token) ∧
      ∃ g ∈ grants s.history, g.token = lease.token ∧ g.runId = runId ∧ g.attempt = lease.attempt
  past : ∀ token lease, latest s.history token = some lease →
    lease.token = token ∧ ((∃ active, s.repo.leases lease.runId = some (lease, active)) ∨
      released s.history token = true ∨ lease.expiresAt ≤ clock)
  known : ∀ token, released s.history token = true ∨ (latest s.history token).isSome = true →
    ∃ g ∈ grants s.history, g.token = token

theorem Fenced.initial (clock : Time) : Fenced {} clock where
  distinct := List.nodup_nil
  increasing := List.Pairwise.nil
  recorded := by simp [grants]
  stored := by simp
  past := by simp [latest]
  known := by simp [latest, released]

namespace Fenced

variable {s : Audited} {clock now : Time}

theorem frame (h : Fenced s clock) (hclock : clock ≤ now) {r : InMemoryFlowRepository}
    {p : Performed} (hleases : r.leases = s.repo.leases) (hgrant : p.granted = none)
    (hhanded : ∀ token, p.handed token = none) (hrel : ∀ token, p.releases token = false) :
    Fenced ⟨r, s.history ++ [p]⟩ now := by
  have hg : grants (s.history ++ [p]) = grants s.history := by
    rw [grants_append, hgrant]
    simp
  have hl : latest (s.history ++ [p]) = latest s.history := by
    funext token
    rw [latest_append, hhanded]
    rfl
  have hr : released (s.history ++ [p]) = released s.history := by
    funext token
    rw [released_append, hrel, Bool.or_false]
  refine ⟨?_, ?_, ?_, ?_, ?_, ?_⟩ <;> simp only [hg, hl, hr, hleases]
  · exact h.distinct
  · exact h.increasing
  · exact h.recorded
  · exact h.stored
  · intro token lease htoken
    obtain ⟨ht, hpast⟩ := h.past token lease htoken
    refine ⟨ht, ?_⟩
    rcases hpast with hcur | hrel' | hexp
    · exact .inl hcur
    · exact .inr (.inl hrel')
    · exact .inr (.inr (le_trans hexp hclock))
  · exact h.known

theorem token_unique (h : Fenced s clock) {g g' : FlowExecutionLease}
    (hg : g ∈ grants s.history) (hg' : g' ∈ grants s.history) (ht : g.token = g'.token) :
    g = g' :=
  List.inj_on_of_nodup_map h.distinct hg hg' ht

theorem acquired (h : Fenced s clock) (hclock : clock ≤ now) {token runId : UUID}
    {ownerId : String} {ttl : ℚ}
    (hfree : ∀ prior, s.repo.leases runId = some (prior, true) → prior.isExpired now = true)
    (hfresh : ∀ g ∈ grants s.history, g.token ≠ token) {p : Performed}
    (hp : p = ⟨.acquire token runId ownerId ttl,
      .ok (some (s.repo.grantedLease now token runId ownerId ttl))⟩) :
    Fenced ⟨s.repo.setLease runId (s.repo.grantedLease now token runId ownerId ttl) true,
      s.history ++ [p]⟩ now := by
  subst hp
  set lease := s.repo.grantedLease now token runId ownerId ttl with hlease
  have htoken : lease.token = token := rfl
  have hrun : lease.runId = runId := rfl
  have hattempt : ∀ g ∈ grants s.history, g.runId = runId → g.attempt < lease.attempt := by
    intro g hg hgr
    obtain ⟨prior, active, hprior, hle⟩ := h.recorded g hg
    rw [hgr] at hprior
    have : lease.attempt = prior.attempt + 1 := by
      simp [hlease, InMemoryFlowRepository.grantedLease, hprior]
    omega
  have hnone : released s.history token = false ∧ latest s.history token = none := by
    constructor
    · by_contra hrel
      obtain ⟨g, hg, hgt⟩ := h.known token (.inl (by simpa using hrel))
      exact hfresh g hg hgt
    · by_contra hsome
      obtain ⟨g, hg, hgt⟩ := h.known token (.inr (Option.isSome_iff_ne_none.mpr hsome))
      exact hfresh g hg hgt
  have hg : grants (s.history ++ [⟨.acquire token runId ownerId ttl, .ok (some lease)⟩]) =
      grants s.history ++ [lease] := by
    rw [grants_append]
    rfl
  have hl : ∀ t, latest (s.history ++ [⟨.acquire token runId ownerId ttl, .ok (some lease)⟩]) t =
      if token = t then some lease else latest s.history t := by
    intro t
    rw [latest_append]
    by_cases ht : token = t <;> simp [Performed.handed, htoken, ht]
  have hr : released (s.history ++ [⟨.acquire token runId ownerId ttl, .ok (some lease)⟩]) =
      released s.history := by
    funext t
    rw [released_append]
    simp [Performed.releases]
  refine ⟨?_, ?_, ?_, ?_, ?_, ?_⟩ <;>
    simp only [hg, hl, hr, InMemoryFlowRepository.setLease]
  · rw [List.map_append, List.nodup_append]
    refine ⟨h.distinct, by simp, ?_⟩
    intro t ht t' ht'
    obtain ⟨g, hg, rfl⟩ := List.mem_map.mp ht
    simp only [List.map_cons, List.map_nil, List.mem_singleton] at ht'
    rw [ht', htoken]
    exact hfresh g hg
  · rw [List.pairwise_append]
    refine ⟨h.increasing, by simp, ?_⟩
    intro g hg g' hg' hsame
    rw [List.mem_singleton] at hg'
    subst hg'
    exact hattempt g hg hsame
  · intro g hg
    rw [List.mem_append, List.mem_singleton] at hg
    by_cases hgr : g.runId = runId
    · refine ⟨lease, true, by simp [hgr], ?_⟩
      rcases hg with hg | rfl
      · exact le_of_lt (hattempt g hg hgr)
      · exact le_refl _
    · rcases hg with hg | rfl
      · rw [Function.update_of_ne hgr]
        exact h.recorded g hg
      · exact absurd hrun hgr
  · intro run l active hstored
    by_cases hrn : run = runId
    · subst hrn
      simp only [Function.update_self, Option.some.injEq, Prod.mk.injEq] at hstored
      obtain ⟨rfl, rfl⟩ := hstored
      refine ⟨hrun, by simp [htoken], by simp [htoken, hnone.1], ?_⟩
      exact ⟨lease, by simp, rfl, hrun, rfl⟩
    · rw [Function.update_of_ne hrn] at hstored
      obtain ⟨hlr, hlat, hact, g, hg, hgt, hgr, hga⟩ := h.stored run l active hstored
      have hne : token ≠ l.token := by
        rw [← hgt]
        exact (hfresh g hg).symm
      exact ⟨hlr, by rw [if_neg hne]; exact hlat, hact, g, List.mem_append_left _ hg, hgt, hgr, hga⟩
  · intro t l ht
    by_cases htt : token = t
    · rw [if_pos htt] at ht
      obtain rfl := Option.some.inj ht
      exact ⟨htoken.trans htt, .inl ⟨true, by simp [hrun]⟩⟩
    · rw [if_neg htt] at ht
      obtain ⟨hlt, hpast⟩ := h.past t l ht
      refine ⟨hlt, ?_⟩
      rcases hpast with ⟨active, hcur⟩ | hrel | hexp
      · by_cases hlr : l.runId = runId
        · -- the record that is replaced was released or has expired
          cases hact : active with
          | true =>
            rw [hact, hlr] at hcur
            have hx := hfree l hcur
            exact .inr (.inr (by simpa [FlowExecutionLease.isExpired] using hx))
          | false =>
            have hst := (h.stored _ l active hcur).2.2.1
            rw [hact, hlt] at hst
            exact .inr (.inl (by simpa using hst.symm))
        · exact .inl ⟨active, by rw [Function.update_of_ne hlr]; exact hcur⟩
      · exact .inr (.inl hrel)
      · exact .inr (.inr (le_trans hexp hclock))
  · intro t ht
    by_cases htt : token = t
    · exact ⟨lease, by simp, htoken.trans htt⟩
    · rw [if_neg htt] at ht
      obtain ⟨g, hg, hgt⟩ := h.known t ht
      exact ⟨g, List.mem_append_left _ hg, hgt⟩

theorem replaced (h : Fenced s clock) (hclock : clock ≤ now) {runId : UUID}
    {current next : FlowExecutionLease} {active active' : Bool} {p : Performed}
    (hstored : s.repo.leases runId = some (current, active))
    (htoken : next.token = current.token) (hrun : next.runId = current.runId)
    (hattempt : next.attempt = current.attempt) (hgrant : p.granted = none)
    (hlatest : ∀ t, latest (s.history ++ [p]) t =
      if current.token = t then some next else latest s.history t)
    (hrel : ∀ t, current.token ≠ t → released (s.history ++ [p]) t = released s.history t)
    (hact : active' = !released (s.history ++ [p]) current.token) :
    Fenced ⟨s.repo.setLease runId next active', s.history ++ [p]⟩ now := by
  have hg : grants (s.history ++ [p]) = grants s.history := by
    rw [grants_append, hgrant]
    simp
  obtain ⟨hcr, hcl, hca, g₀, hg₀, hgt₀, hgr₀, hga₀⟩ := h.stored runId current active hstored
  have hmono : ∀ t, released s.history t = true → released (s.history ++ [p]) t = true := by
    intro t ht
    rw [released_append, ht, Bool.true_or]
  refine ⟨?_, ?_, ?_, ?_, ?_, ?_⟩ <;>
    simp only [hg, hlatest, InMemoryFlowRepository.setLease]
  · exact h.distinct
  · exact h.increasing
  · intro g hgm
    obtain ⟨l, act, hl, hle⟩ := h.recorded g hgm
    by_cases hgr : g.runId = runId
    · rw [hgr, hstored] at hl
      obtain ⟨rfl, rfl⟩ := Prod.mk.inj (Option.some.inj hl)
      exact ⟨next, active', by simp [hgr], by rw [hattempt]; exact hle⟩
    · exact ⟨l, act, by rw [Function.update_of_ne hgr]; exact hl, hle⟩
  · intro run l act hl
    by_cases hrn : run = runId
    · subst hrn
      simp only [Function.update_self, Option.some.injEq, Prod.mk.injEq] at hl
      obtain ⟨rfl, rfl⟩ := hl
      refine ⟨hrun.trans hcr, by simp [htoken], by rw [hact, htoken], g₀, hg₀, ?_, hgr₀, ?_⟩
      · rw [hgt₀, htoken]
      · rw [hga₀, hattempt]
    · rw [Function.update_of_ne hrn] at hl
      obtain ⟨hlr, hll, hla, g, hgm, hgt, hgr, hga⟩ := h.stored run l act hl
      have hne : current.token ≠ l.token := by
        intro heq
        have : g₀ = g := h.token_unique hg₀ hgm (by rw [hgt₀, hgt, heq])
        exact hrn (by rw [← hgr, ← this, hgr₀])
      exact ⟨hlr, by rw [if_neg hne]; exact hll, by rw [hla, hrel _ hne], g, hgm, hgt, hgr, hga⟩
  · intro t l ht
    by_cases htt : current.token = t
    · rw [if_pos htt] at ht
      obtain rfl := Option.some.inj ht
      exact ⟨htoken.trans htt, .inl ⟨active', by simp [hrun, hcr]⟩⟩
    · rw [if_neg htt] at ht
      obtain ⟨hlt, hpast⟩ := h.past t l ht
      refine ⟨hlt, ?_⟩
      rcases hpast with ⟨act, hcur⟩ | hrel' | hexp
      · have hlr : l.runId ≠ runId := by
          intro heq
          rw [heq, hstored] at hcur
          obtain ⟨rfl, -⟩ := Prod.mk.inj (Option.some.inj hcur)
          exact htt hlt
        exact .inl ⟨act, by rw [Function.update_of_ne hlr]; exact hcur⟩
      · exact .inr (.inl (hmono t hrel'))
      · exact .inr (.inr (le_trans hexp hclock))
  · intro t ht
    by_cases htt : current.token = t
    · exact ⟨g₀, hg₀, hgt₀.trans htt⟩
    · rw [if_neg htt, hrel t htt] at ht
      exact h.known t ht

theorem renewed (h : Fenced s clock) (hclock : clock ≤ now) {lease current : FlowExecutionLease}
    {ttl : ℚ} (hstored : s.repo.leases lease.runId = some (current, true)) :
    Fenced ⟨s.repo.setLease lease.runId (current.renewed now ttl) true,
      s.history ++ [⟨.renew lease ttl, .ok (some (current.renewed now ttl))⟩]⟩ now := by
  have hr : ∀ t, released (s.history ++ [⟨.renew lease ttl,
      .ok (some (current.renewed now ttl))⟩]) t = released s.history t := by
    intro t
    rw [released_append]
    simp [Performed.releases]
  refine h.replaced hclock hstored rfl rfl rfl rfl ?_ (fun t _ => hr t) ?_
  · intro t
    rw [latest_append]
    by_cases ht : current.token = t <;>
      simp [Performed.handed, FlowExecutionLease.renewed, ht]
  · rw [hr]
    exact (h.stored _ _ _ hstored).2.2.1

theorem releasedBy (h : Fenced s clock) (hclock : clock ≤ now)
    {lease current : FlowExecutionLease} {active : Bool}
    (hstored : s.repo.leases lease.runId = some (current, active))
    (htoken : current.token = lease.token) :
    Fenced ⟨s.repo.setLease lease.runId current false,
      s.history ++ [⟨.release lease, .ok none⟩]⟩ now := by
  refine h.replaced hclock hstored rfl rfl rfl rfl ?_ ?_ ?_
  · intro t
    rw [latest_append]
    by_cases ht : current.token = t
    · rw [if_pos ht, ← ht, (h.stored _ _ _ hstored).2.1]
      rfl
    · rw [if_neg ht]
      rfl
  · intro t ht
    rw [released_append]
    simp [Performed.releases, ← htoken, ht]
  · rw [released_append]
    simp [Performed.releases, htoken]

end Fenced

/-! ## Every run -/

namespace Fenced

variable {s : Audited} {clock now : Time}

theorem later (h : Fenced s clock) (hclock : clock ≤ now) : Fenced s now := by
  refine ⟨h.distinct, h.increasing, h.recorded, h.stored, ?_, h.known⟩
  intro token lease ht
  obtain ⟨hlt, hpast⟩ := h.past token lease ht
  refine ⟨hlt, ?_⟩
  rcases hpast with hcur | hrel | hexp
  · exact .inl hcur
  · exact .inr (.inl hrel)
  · exact .inr (.inr (le_trans hexp hclock))

theorem step {c : TimedCall} (h : Fenced s clock) (hclock : clock ≤ c.now)
    (hfresh : ∀ token runId ownerId ttl, c.call = .acquire token runId ownerId ttl →
      ∀ g ∈ grants s.history, g.token ≠ token) :
    Fenced (s.step c) c.now := by
  have heff := c.effect s.repo
  unfold Audited.step
  revert heff
  generalize (c.perform s.repo).1 = reply
  generalize (c.perform s.repo).2 = repo
  intro heff
  cases heff with
  | raised e =>
    refine h.frame hclock rfl ?_ (fun _ => rfl) ?_
    · cases c.call <;> rfl
    · intro t
      cases c.call <;> rfl
  | created _ state drafts hcall hleases =>
    rw [hcall]
    exact h.frame hclock hleases rfl (fun _ => rfl) (fun _ => rfl)
  | wrote _ runId token hcall _ hleases =>
    refine h.frame hclock hleases ?_ (fun _ => rfl) ?_
    · cases c.call <;> rfl
    · intro t
      cases hc : c.call <;> rw [hc] at hcall <;> first | rfl | exact hcall.elim
  | acquired token runId ownerId ttl hcall hfree =>
    exact h.acquired hclock hfree (hfresh token runId ownerId ttl hcall) (by rw [hcall])
  | renewed lease current ttl hcall hstored _ _ =>
    rw [hcall]
    exact h.renewed hclock hstored
  | released lease current active hcall hstored htoken =>
    rw [hcall]
    exact h.releasedBy hclock hstored htoken

end Fenced

theorem Audited.run_append (calls : List TimedCall) (c : TimedCall) :
    Audited.run (calls ++ [c]) = (Audited.run calls).step c := by
  simp [Audited.run]

theorem granted_drawn (calls : List TimedCall) :
    ∀ g ∈ grants (Audited.run calls).history, g.token ∈ drawnTokens calls := by
  induction calls using List.reverseRecOn with
  | nil => simp [Audited.run, grants]
  | append_singleton calls c ih =>
    intro g hg
    rw [Audited.run_append, Audited.step, grants_append, List.mem_append] at hg
    rw [drawnTokens, List.filterMap_append, List.mem_append]
    rcases hg with hg | hg
    · exact .inl (ih g hg)
    · right
      have heff := c.effect (Audited.run calls).repo
      revert hg heff
      generalize (c.perform (Audited.run calls).repo).1 = reply
      generalize (c.perform (Audited.run calls).repo).2 = repo
      intro hg heff
      cases heff with
      | acquired token runId ownerId ttl hcall _ =>
        rw [hcall] at hg
        simp only [Performed.granted, Option.toList_some, List.mem_singleton] at hg
        simp [hcall, hg, InMemoryFlowRepository.grantedLease]
      | raised e => cases hc : c.call <;> simp [Performed.granted, hc] at hg
      | created _ _ _ hcall _ => simp [Performed.granted, hcall] at hg
      | wrote _ _ _ hcall _ _ =>
        cases hc : c.call <;> rw [hc] at hcall hg <;>
          first | exact hcall.elim | simp [Performed.granted] at hg
      | renewed _ _ _ hcall _ _ _ => simp [Performed.granted, hcall] at hg
      | released _ _ _ hcall _ _ => simp [Performed.granted, hcall] at hg

theorem Fenced.run (calls : List TimedCall) (hclock : calls.Pairwise fun a b => a.now ≤ b.now)
    (hfresh : (drawnTokens calls).Nodup) {clock : Time} (hnow : ∀ c ∈ calls, c.now ≤ clock) :
    Fenced (Audited.run calls) clock := by
  induction calls using List.reverseRecOn generalizing clock with
  | nil => exact Fenced.initial clock
  | append_singleton calls c ih =>
    rw [List.pairwise_append] at hclock
    rw [drawnTokens, List.filterMap_append, List.nodup_append] at hfresh
    have hprev : Fenced (Audited.run calls) c.now :=
      ih hclock.1 hfresh.1 fun c' hc' => hclock.2.2 c' hc' c (by simp)
    rw [Audited.run_append]
    refine (hprev.step (le_refl _) ?_).later (hnow c (by simp))
    intro token runId ownerId ttl hcall g hg
    refine hfresh.2.2 g.token (granted_drawn calls g hg) token ?_
    simp [hcall]

namespace Fenced

variable {s : Audited} {now : Time}

theorem live_stored (h : Fenced s now) {runId token : UUID}
    (hlive : Live s.history runId token now) :
    ∃ lease active, s.repo.leases runId = some (lease, active) ∧ lease.token = token := by
  obtain ⟨lease, hlat, hrun, hexp, hrel⟩ := hlive
  obtain ⟨htok, hpast⟩ := h.past token lease hlat
  rcases hpast with ⟨active, hcur⟩ | hrel' | hexp'
  · exact ⟨lease, active, by rw [← hrun]; exact hcur, htok⟩
  · rw [hrel] at hrel'
    cases hrel'
  · have hlt : now < lease.expiresAt := by simpa [FlowExecutionLease.isExpired] using hexp
    exact absurd hexp' (not_le.mpr hlt)

theorem live_unique (h : Fenced s now) {runId t t' : UUID}
    (ht : Live s.history runId t now) (ht' : Live s.history runId t' now) : t = t' := by
  obtain ⟨lease, active, hl, rfl⟩ := h.live_stored ht
  obtain ⟨lease', active', hl', rfl⟩ := h.live_stored ht'
  rw [hl] at hl'
  obtain ⟨rfl, -⟩ := Prod.mk.inj (Option.some.inj hl')
  rfl

theorem stored_live (h : Fenced s now) {runId : UUID} {lease : FlowExecutionLease}
    (hstored : s.repo.leases runId = some (lease, true)) (hexp : lease.isExpired now = false) :
    Live s.history runId lease.token now := by
  obtain ⟨hrun, hlat, hact, -⟩ := h.stored runId lease true hstored
  exact ⟨lease, hlat, hrun, hexp, by simpa using hact⟩

theorem stored_current (h : Fenced s now) {runId : UUID} {lease : FlowExecutionLease}
    (hstored : s.repo.leases runId = some (lease, true)) :
    ¬ (Superseded s.history lease.token ∨ released s.history lease.token = true) := by
  obtain ⟨-, -, hact, g₀, hg₀, hgt₀, hgr₀, hga₀⟩ := h.stored runId lease true hstored
  rintro (⟨g, g', hsub, hgt, hgr⟩ | hrel)
  · have hlt : g.attempt < g'.attempt := by
      have hpair := h.increasing.sublist hsub
      simp only [List.pairwise_cons] at hpair
      exact hpair.1 g' (by simp) hgr.symm
    have hg : g ∈ grants s.history := hsub.subset (by simp)
    have hg' : g' ∈ grants s.history := hsub.subset (by simp)
    obtain rfl := h.token_unique hg hg₀ (by rw [hgt, hgt₀])
    obtain ⟨l, active, hl, hle⟩ := h.recorded g' hg'
    rw [hgr, hgr₀, hstored] at hl
    obtain ⟨rfl, -⟩ := Prod.mk.inj (Option.some.inj hl)
    omega
  · rw [hrel] at hact
    cases hact

end Fenced

/-- An accepted write to a leased Run carries the token of its live lease. -/
theorem Fenced.write_live {s : Audited} {c : TimedCall} (h : Fenced s c.now) {runId : UUID}
    {token : Option UUID} (hleased : ∃ g ∈ grants s.history, g.runId = runId)
    (hwrites : c.call.Writes runId token) (hok : (c.perform s.repo).1 = .ok none) :
    ∃ t, token = some t ∧ Live s.history runId t c.now := by
  have heff := c.effect s.repo
  rw [hok] at heff
  revert heff
  generalize (c.perform s.repo).2 = repo
  intro heff
  cases heff with
  | created _ _ _ hcall _ => rw [hcall] at hwrites; exact hwrites.elim
  | released _ _ _ hcall _ _ => rw [hcall] at hwrites; exact hwrites.elim
  | wrote _ runId' token' hcall htoken _ =>
    have hsame : runId' = runId ∧ token' = token := by
      cases hc : c.call <;> rw [hc] at hcall hwrites <;>
        first
          | exact hwrites.elim
          | exact ⟨hcall.1.symm.trans hwrites.1, hcall.2.symm.trans hwrites.2⟩
    obtain ⟨rfl, rfl⟩ := hsame
    rcases InMemoryFlowRepository.validateExecutionToken_ok htoken with
      ⟨hnone, -⟩ | ⟨lease, hstored, htok, hexp⟩
    · obtain ⟨g, hg, hgr⟩ := hleased
      obtain ⟨lease, active, hl, -⟩ := h.recorded g hg
      rw [hgr, hnone] at hl
      cases hl
    · exact ⟨lease.token, htok, h.stored_live hstored hexp⟩

/-- A token that is not current neither writes nor renews. -/
theorem Fenced.stale_rejected {s : Audited} {c : TimedCall} (h : Fenced s c.now) {t : UUID}
    (hstale : Superseded s.history t ∨ released s.history t = true)
    (huse : (∃ runId, c.call.Writes runId (some t)) ∨ c.call.Renews t) :
    ∃ e, (c.perform s.repo).1 = .error e := by
  have heff := c.effect s.repo
  revert heff
  generalize (c.perform s.repo).1 = reply
  generalize (c.perform s.repo).2 = repo
  intro heff
  have hclash : ∀ {runId lease}, s.repo.leases runId = some (lease, true) → lease.token ≠ t := by
    rintro runId lease hstored rfl
    exact h.stored_current hstored hstale
  cases heff with
  | raised e => exact ⟨e, rfl⟩
  | created _ _ _ hcall _ =>
    rw [hcall] at huse
    exact absurd huse (by simp [RepositoryCall.Writes, RepositoryCall.Renews])
  | released _ _ _ hcall _ _ =>
    rw [hcall] at huse
    exact absurd huse (by simp [RepositoryCall.Writes, RepositoryCall.Renews])
  | acquired _ _ _ _ hcall _ =>
    rw [hcall] at huse
    exact absurd huse (by simp [RepositoryCall.Writes, RepositoryCall.Renews])
  | renewed lease current ttl hcall hstored htoken _ =>
    rw [hcall] at huse
    rcases huse with ⟨_, hw⟩ | hr
    · exact hw.elim
    · exact absurd (htoken.trans hr) (hclash hstored)
  | wrote _ runId token hcall htoken _ =>
    have htok : token = some t := by
      cases hc : c.call <;> rw [hc] at hcall huse <;>
        simp_all [RepositoryCall.Writes, RepositoryCall.Renews]
    rcases InMemoryFlowRepository.validateExecutionToken_ok htoken with
      ⟨-, hnone⟩ | ⟨lease, hstored, htok', -⟩
    · rw [hnone] at htok
      cases htok
    · rw [htok'] at htok
      exact absurd (Option.some.inj htok) (hclash hstored)

theorem TimedCall.rejected_unchanged {c : TimedCall} {r : InMemoryFlowRepository} {e : FlowError}
    (h : (c.perform r).1 = .error e) : (c.perform r).2 = r := by
  have heff := c.effect r
  rw [h] at heff
  revert heff
  generalize (c.perform r).2 = repo
  intro heff
  cases heff with
  | raised => rfl

theorem exists_clock (calls : List TimedCall) : ∃ clock, ∀ c ∈ calls, c.now ≤ clock := by
  induction calls with
  | nil => exact ⟨0, by simp⟩
  | cons c calls ih =>
    obtain ⟨clock, h⟩ := ih
    refine ⟨max c.now clock, fun c' hc' => ?_⟩
    rcases List.mem_cons.mp hc' with rfl | hmem
    · exact le_max_left _ _
    · exact le_trans (h c' hmem) (le_max_right _ _)

theorem leases_fence_writers (calls : List TimedCall)
    (hclock : calls.Pairwise fun a b => a.now ≤ b.now) (hfresh : (drawnTokens calls).Nodup) :
    (∀ now runId t t', (∀ c ∈ calls, c.now ≤ now) →
      Live (Audited.run calls).history runId t now →
      Live (Audited.run calls).history runId t' now → t = t') ∧
    ((grants (Audited.run calls).history).Pairwise fun a b =>
      a.runId = b.runId → a.attempt < b.attempt) ∧
    ∀ earlier c later, calls = earlier ++ c :: later →
      (∀ runId token, (∃ g ∈ grants (Audited.run earlier).history, g.runId = runId) →
        c.call.Writes runId token → (c.perform (Audited.run earlier).repo).1 = .ok none →
        ∃ t, token = some t ∧ Live (Audited.run earlier).history runId t c.now) ∧
      (∀ t, Superseded (Audited.run earlier).history t ∨
          released (Audited.run earlier).history t = true →
        (∃ runId, c.call.Writes runId (some t)) ∨ c.call.Renews t →
        ∃ e, (c.perform (Audited.run earlier).repo).1 = .error e) ∧
      ∀ e, (c.perform (Audited.run earlier).repo).1 = .error e →
        (c.perform (Audited.run earlier).repo).2 = (Audited.run earlier).repo := by
  refine ⟨?_, ?_, ?_⟩
  · intro now runId t t' hnow ht ht'
    exact (Fenced.run calls hclock hfresh hnow).live_unique ht ht'
  · obtain ⟨clock, hnow⟩ := exists_clock calls
    exact (Fenced.run calls hclock hfresh hnow).increasing
  · intro earlier c later hcalls
    subst hcalls
    rw [List.pairwise_append] at hclock
    rw [drawnTokens, List.filterMap_append, List.nodup_append] at hfresh
    have h : Fenced (Audited.run earlier) c.now :=
      Fenced.run earlier hclock.1 hfresh.1 fun c' hc' => hclock.2.2 c' hc' c (by simp)
    exact ⟨fun _ _ hleased hwrites hok => h.write_live hleased hwrites hok,
      fun _ hstale huse => h.stale_rejected hstale huse,
      fun _ hrej => TimedCall.rejected_unchanged hrej⟩

def leasedFlow : FlowRunState :=
  { runId := 7, definitionId := "flow", definitionVersion := "1", definitionFingerprint := ""
    budget := {}, createdAt := 0 }

-- Worker `a` holds the lease for one second; worker `b` takes it over after two.
def takeover : List TimedCall :=
  [⟨0, .create leasedFlow [⟨.flowCreated, []⟩]⟩, ⟨0, .acquire 1 7 "a" 1⟩,
    ⟨2000000, .acquire 2 7 "b" 1⟩]

def lateCommit : TimedCall :=
  ⟨2000000, .commit { leasedFlow with revision := 2, status := .running } 1
    [⟨.flowStarted, []⟩] (some 1)⟩

theorem leases_fence_writers_takeover :
    (grants (Audited.run takeover).history).map (·.attempt) = [1, 2] ∧
    ∃ e, (lateCommit.perform (Audited.run takeover).repo).1 = .error e := by
  have hgrants : grants (Audited.run takeover).history =
      [⟨7, 1, "a", 1, 0, 0, 1000000⟩, ⟨7, 2, "b", 2, 2000000, 2000000, 3000000⟩] := by
    decide +kernel
  have hfenced := leases_fence_writers (takeover ++ [lateCommit]) (by decide) (by decide)
  refine ⟨by rw [hgrants]; rfl,
    (hfenced.2.2 takeover lateCommit [] rfl).2.1 1 (.inl ?_) (.inl ⟨7, rfl, rfl⟩)⟩
  rw [Superseded, hgrants]
  exact ⟨_, _, List.Sublist.refl _, rfl, rfl⟩
end Flows
end BaseAgent
