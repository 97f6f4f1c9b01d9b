import BaseAgent.Postgres.FlowRepository

/-!
# The two Flow repositories agree

Each table of the PostgreSQL repository stands for one dictionary of the in-memory one: the runs for
the states, the events of a Run in the order of their numbers for its list, and a lease row with its
flag for the pair that is kept for the Run.  Every operation keeps this and returns the same in both
repositories.
-/

namespace BaseAgent
namespace Postgres

open BaseAgent.Flows

namespace PostgresFlowRepository

/-! ## Runs -/

structure MirrorsRuns (states : UUID → Option FlowRunState) (rows : List FlowRunRow) : Prop where
  ids : (rows.map (·.id)).Nodup
  states : ∀ runId, states runId = (rowOf (·.id) rows runId).map (·.payload)
  columns : ∀ row ∈ rows, row = flowValues row.payload
  valid : ∀ row ∈ rows, validateFlow row.payload = .ok row.payload

section Runs

variable {states : UUID → Option FlowRunState} {rows : List FlowRunRow} {state current : FlowRunState}

theorem MirrorsRuns.row (h : MirrorsRuns states rows) {runId : UUID}
    (hstate : states runId = some current) :
    rowOf (·.id) rows runId = some (flowValues current) ∧ current.runId = runId := by
  rw [h.states] at hstate
  obtain ⟨row, hrow, rfl⟩ := Option.map_eq_some_iff.mp hstate
  obtain ⟨hmem, hid⟩ := rowOf_some hrow
  have hcolumns := h.columns row hmem
  rw [hrow, ← hcolumns]
  refine ⟨rfl, ?_⟩
  rw [← hid, hcolumns]
  rfl

theorem MirrorsRuns.none_iff (h : MirrorsRuns states rows) {runId : UUID} :
    states runId = none ↔ runId ∉ rows.map (·.id) := by
  rw [h.states, Option.map_eq_none_iff, rowOf_none]

theorem MirrorsRuns.mem (h : MirrorsRuns states rows) {runId : UUID}
    (hstate : states runId = some current) : runId ∈ rows.map (·.id) := by
  by_contra hnot
  rw [h.none_iff.mpr hnot] at hstate
  cases hstate

theorem MirrorsRuns.insert (h : MirrorsRuns states rows) (hnew : states state.runId = none)
    (hvalid : validateFlow state = .ok state) :
    MirrorsRuns (Function.update states state.runId (some state)) (rows ++ [flowValues state]) := by
  have hfresh : (flowValues state).id ∉ rows.map (·.id) := h.none_iff.mp hnew
  constructor
  · rw [List.map_append, List.map_singleton]
    exact h.ids.append (List.nodup_singleton _) (by simpa using hfresh)
  · intro runId
    rw [Function.update_apply, rowOf_append hfresh, h.states]
    show _ = Option.map _ (if runId = state.runId then _ else _)
    split
    · rfl
    · rfl
  · intro row hrow
    rcases List.mem_append.mp hrow with hold | hrow
    · exact h.columns row hold
    · rw [List.mem_singleton.mp hrow]
      rfl
  · intro row hrow
    rcases List.mem_append.mp hrow with hold | hrow
    · exact h.valid row hold
    · rw [List.mem_singleton.mp hrow]
      exact hvalid

theorem MirrorsRuns.replace (h : MirrorsRuns states rows)
    (hstate : states state.runId = some current) (hvalid : validateFlow state = .ok state) :
    MirrorsRuns (Function.update states state.runId (some state))
      (setRow (·.id) rows (flowValues state)) := by
  have hmem : (flowValues state).id ∈ rows.map (·.id) := h.mem hstate
  have hrows : ∀ row ∈ setRow (·.id) rows (flowValues state), row = flowValues state ∨ row ∈ rows := by
    intro row hrow
    obtain ⟨old, hold, rfl⟩ := List.mem_map.mp hrow
    split
    · exact .inl rfl
    · exact .inr hold
  constructor
  · rw [map_key_setRow]
    exact h.ids
  · intro runId
    rw [Function.update_apply, rowOf_setRow hmem, h.states]
    show _ = Option.map _ (if runId = state.runId then _ else _)
    split
    · rfl
    · rfl
  · intro row hrow
    rcases hrows row hrow with rfl | hold
    · rfl
    · exact h.columns row hold
  · intro row hrow
    rcases hrows row hrow with rfl | hold
    · exact hvalid
    · exact h.valid row hold

/-- The update of a commit changes the row of the Run and no other. -/
theorem MirrorsRuns.committing (h : MirrorsRuns states rows) {runId : UUID}
    (hstate : states runId = some current) :
    ∀ row ∈ rows, PostgresFlowRepository.committing runId current.revision row = true ↔
      row.id = runId := by
  intro row hrow
  unfold PostgresFlowRepository.committing
  rw [decide_eq_true_eq]
  constructor
  · exact fun hboth => hboth.1
  · intro hid
    obtain ⟨hfound, -⟩ := h.row hstate
    have hsame : row = flowValues current := by
      apply List.inj_on_of_nodup_map h.ids hrow (rowOf_some hfound).1
      exact hid.trans (rowOf_some hfound).2.symm
    rw [hsame] at hid ⊢
    exact ⟨hid, rfl⟩

theorem MirrorsRuns.rowcount (h : MirrorsRuns states rows) {runId : UUID}
    (hstate : states runId = some current) :
    (rows.filter (PostgresFlowRepository.committing runId current.revision)).length = 1 := by
  have hfilter : rows.filter (PostgresFlowRepository.committing runId current.revision) =
      rows.filter fun row => row.id = runId := by
    apply List.filter_congr
    intro row hrow
    rw [Bool.eq_iff_iff, h.committing hstate row hrow, decide_eq_true_eq]
  rw [hfilter, filter_key_eq h.ids (h.row hstate).1, List.length_singleton]

theorem MirrorsRuns.update (h : MirrorsRuns states rows)
    (hstate : states state.runId = some current) :
    (rows.map fun row =>
      if PostgresFlowRepository.committing state.runId current.revision row then flowValues state
      else row) = setRow (·.id) rows (flowValues state) := by
  apply List.map_congr_left
  intro row hrow
  have hiff := h.committing hstate row hrow
  by_cases hid : row.id = state.runId
  · rw [if_pos (hiff.mpr hid)]
    show _ = if row.id = state.runId then _ else _
    rw [if_pos hid]
  · rw [if_neg fun hcommitting => hid (hiff.mp hcommitting)]
    show _ = if row.id = state.runId then _ else _
    rw [if_neg hid]

end Runs

/-! ## Events -/

structure MirrorsEvents (events : UUID → List RuntimeEvent) (rows : List FlowEventRow) : Prop where
  events : ∀ runId, events runId = (rows.filter fun row => row.runId = runId).map (·.payload)
  columns : ∀ row ∈ rows, row = eventValues row.payload
  numbered : ∀ runId, Consecutive (·.sequence) (rows.filter fun row => row.runId = runId)

section Events

variable {events : UUID → List RuntimeEvent} {rows : List FlowEventRow} {runId : UUID}
variable {drafts : List FlowEventDraft}

theorem materializeEvents_eq (start : Nat) :
    materializeEvents runId drafts start = Flows.materializeEvents runId drafts start := by
  induction drafts generalizing start with
  | nil => rfl
  | cons draft rest ih =>
    have hrest : materializeEvents runId (draft :: rest) start =
        { runId := runId, sequence := start, type := draft.type, data := draft.data } ::
          materializeEvents runId rest (start + 1) := by
      unfold materializeEvents
      rw [List.mapIdx_cons]
      congr 2
      funext offset other
      rw [Nat.add_assoc, Nat.add_comm 1 offset]
    rw [hrest, ih]
    rfl

theorem materialized_sequences (start : Nat) :
    ((materializeEvents runId drafts start).map eventValues).map (·.sequence) =
      List.range' start ((materializeEvents runId drafts start).map eventValues).length := by
  induction drafts generalizing start with
  | nil => rfl
  | cons draft rest ih =>
    have htail := ih (start + 1)
    rw [materializeEvents_eq] at htail ⊢
    show _ :: _ = List.range' start (_ + 1)
    rw [List.range'_succ, ← htail]
    rfl

theorem materialized_run {start : Nat} {event : RuntimeEvent}
    (h : event ∈ materializeEvents runId drafts start) : event.runId = runId := by
  obtain ⟨offset, hoffset, rfl⟩ := List.mem_mapIdx.mp h
  rfl

theorem filter_added (start : Nat) (other : UUID) :
    (rows ++ (materializeEvents runId drafts start).map eventValues).filter
        (fun row => row.runId = other) =
      if other = runId then (rows.filter fun row => row.runId = other) ++
        (materializeEvents runId drafts start).map eventValues
      else rows.filter fun row => row.runId = other := by
  rw [List.filter_append]
  by_cases heq : other = runId
  · rw [if_pos heq]
    congr 1
    rw [List.filter_eq_self]
    intro row hrow
    obtain ⟨event, hevent, rfl⟩ := List.mem_map.mp hrow
    simpa [eventValues, heq] using materialized_run hevent
  · rw [if_neg heq]
    have hnil : ((materializeEvents runId drafts start).map eventValues).filter
        (fun row => row.runId = other) = [] := by
      rw [List.filter_eq_nil_iff]
      intro row hrow
      obtain ⟨event, hevent, rfl⟩ := List.mem_map.mp hrow
      have hne : event.runId ≠ other := by
        rw [materialized_run hevent]
        exact fun h => heq h.symm
      simp [eventValues, hne]
    rw [hnil, List.append_nil]

theorem MirrorsEvents.length (h : MirrorsEvents events rows) (runId : UUID) :
    (rows.filter fun row => row.runId = runId).length = (events runId).length := by
  rw [h.events, List.length_map]

theorem MirrorsEvents.append (h : MirrorsEvents events rows) (runId : UUID)
    (drafts : List FlowEventDraft) :
    MirrorsEvents
      (Function.update events runId (events runId ++
        Flows.materializeEvents runId drafts ((events runId).length + 1)))
      (rows ++ (materializeEvents runId drafts ((events runId).length + 1)).map eventValues) := by
  constructor
  · intro other
    rw [filter_added, Function.update_apply]
    by_cases heq : other = runId
    · rw [if_pos heq, if_pos heq, List.map_append, List.map_map, h.events, heq,
        ← materializeEvents_eq]
      congr 1
      show _ = List.map id _
      rw [List.map_id]
    · rw [if_neg heq, if_neg heq, h.events]
  · intro row hrow
    rcases List.mem_append.mp hrow with hold | hnew
    · exact h.columns row hold
    · obtain ⟨event, -, rfl⟩ := List.mem_map.mp hnew
      rfl
  · intro other
    rw [filter_added]
    split
    · rename_i heq
      subst heq
      apply (h.numbered other).append
      rw [materialized_sequences, h.length]
    · exact h.numbered other

theorem MirrorsEvents.keys (h : MirrorsEvents events rows) :
    (rows.map fun row => (row.runId, row.sequence)).Nodup :=
  nodup_pairs fun runId => (h.numbered runId).nodup

theorem MirrorsEvents.next (h : MirrorsEvents events rows) (runId : UUID) :
    maximum (·.sequence) (rows.filter fun row => row.runId = runId) = (events runId).length := by
  rw [(h.numbered runId).maximum_eq, h.length]

theorem MirrorsEvents.read (h : MirrorsEvents events rows) (runId : UUID) :
    (orderBy (·.sequence) (rows.filter fun row => row.runId = runId)).mapM
      (fun row => validateEvent row.payload) = .ok (events runId) := by
  rw [(h.numbered runId).orderBy_eq, h.events]
  have hpositive : ∀ row ∈ rows.filter (fun row => row.runId = runId), 1 ≤ row.payload.sequence := by
    intro row hrow
    have hmem : row.sequence ∈ (rows.filter fun row => row.runId = runId).map (·.sequence) :=
      List.mem_map.mpr ⟨row, hrow, rfl⟩
    rw [h.numbered runId, List.mem_range'_1] at hmem
    have hcolumn : row.sequence = row.payload.sequence := by
      rw [h.columns row (List.mem_of_mem_filter hrow)]
      rfl
    omega
  generalize rows.filter (fun row => row.runId = runId) = own at hpositive
  induction own with
  | nil => rfl
  | cons row rest ih =>
    have hrow : validateEvent row.payload = .ok row.payload := by
      have hbound := hpositive row List.mem_cons_self
      have hnot : ¬ row.payload.sequence < 1 := by omega
      unfold validateEvent raiseIf
      rw [if_neg hnot]
      rfl
    rw [List.mapM_cons, hrow, ih fun other hother => hpositive other (List.mem_cons_of_mem _ hother)]
    rfl

end Events

/-! ## Leases -/

structure Granted (row : FlowLeaseRow) : Prop where
  owner : 1 ≤ row.ownerId.length ∧ row.ownerId.length ≤ 256
  attempt : 1 ≤ row.attempt

/-- The tokens of the rows are among those that were drawn. -/
structure MirrorsLeases (drawn : List UUID) (leases : UUID → Option (FlowExecutionLease × Bool))
    (rows : List FlowLeaseRow) : Prop where
  ids : (rows.map (·.runId)).Nodup
  tokens : (rows.map (·.token)).Nodup
  leases : ∀ runId, leases runId = (rowOf (·.runId) rows runId).map fun row => (row.lease, row.active)
  drawn : ∀ row ∈ rows, row.token ∈ drawn
  granted : ∀ row ∈ rows, Granted row

section Leases

variable {drawn : List UUID} {leases : UUID → Option (FlowExecutionLease × Bool)}
variable {rows : List FlowLeaseRow} {row : FlowLeaseRow}

theorem constructLease_ok {lease : FlowExecutionLease} (hmin : 1 ≤ lease.ownerId.length)
    (hmax : lease.ownerId.length ≤ 256) (hattempt : 1 ≤ lease.attempt) :
    constructLease lease = .ok lease := by
  unfold constructLease raiseIf
  rw [if_neg (by omega), if_neg (by omega), if_neg (by omega)]
  rfl

theorem Granted.read (h : Granted row) : leaseFromRow row = .ok row.lease :=
  constructLease_ok h.owner.1 h.owner.2 h.attempt

theorem MirrorsLeases.mono (h : MirrorsLeases drawn leases rows) (token : List UUID) :
    MirrorsLeases (drawn ++ token) leases rows :=
  ⟨h.ids, h.tokens, h.leases, fun row hrow => List.mem_append_left _ (h.drawn row hrow), h.granted⟩

theorem MirrorsLeases.insert (h : MirrorsLeases drawn leases rows)
    (hnew : rowOf (·.runId) rows row.runId = none) (hfresh : row.token ∉ drawn)
    (hgranted : Granted row) :
    MirrorsLeases (drawn ++ [row.token])
      (Function.update leases row.runId (some (row.lease, row.active))) (rows ++ [row]) := by
  have hrun := rowOf_none.mp hnew
  have htoken : row.token ∉ rows.map (·.token) := by
    intro hmem
    obtain ⟨old, hold, heq⟩ := List.mem_map.mp hmem
    exact hfresh (heq ▸ h.drawn old hold)
  constructor
  · rw [List.map_append, List.map_singleton]
    exact h.ids.append (List.nodup_singleton _) (by simpa using hrun)
  · rw [List.map_append, List.map_singleton]
    exact h.tokens.append (List.nodup_singleton _) (by simpa using htoken)
  · intro runId
    rw [Function.update_apply, rowOf_append hrun, h.leases]
    split
    · rfl
    · rfl
  · intro other hother
    rcases List.mem_append.mp hother with hold | hnew
    · exact List.mem_append_left _ (h.drawn other hold)
    · rw [List.mem_singleton.mp hnew]
      exact List.mem_append_right _ (List.mem_singleton.mpr rfl)
  · intro other hother
    rcases List.mem_append.mp hother with hold | hnew
    · exact h.granted other hold
    · rw [List.mem_singleton.mp hnew]
      exact hgranted

theorem MirrorsLeases.replace (h : MirrorsLeases drawn leases rows) {old : FlowLeaseRow}
    (hold : rowOf (·.runId) rows row.runId = some old)
    (htoken : row.token = old.token ∨ row.token ∉ drawn) (hgranted : Granted row)
    {later : List UUID} (hdrawn : drawn ⊆ later) (hlater : row.token ∈ later) :
    MirrorsLeases later
      (Function.update leases row.runId (some (row.lease, row.active)))
      (setRow (·.runId) rows row) := by
  obtain ⟨hmem, hid⟩ := rowOf_some hold
  have hrows : ∀ other ∈ setRow (·.runId) rows row, other = row ∨ other ∈ rows := by
    intro other hother
    obtain ⟨before, hbefore, rfl⟩ := List.mem_map.mp hother
    split
    · exact .inl rfl
    · exact .inr hbefore
  constructor
  · rw [map_key_setRow]
    exact h.ids
  · apply nodup_setRow h.ids h.tokens
    intro other hother hne heq
    rcases htoken with hsame | hfresh
    · have hrow := List.inj_on_of_nodup_map h.tokens hother hmem (heq.trans hsame)
      exact hne (by rw [hrow]; exact hid)
    · exact hfresh (heq ▸ h.drawn other hother)
  · intro runId
    rw [Function.update_apply, rowOf_setRow (List.mem_map.mpr ⟨old, hmem, hid⟩), h.leases]
    split
    · rfl
    · rfl
  · intro other hother
    rcases hrows other hother with rfl | hbefore
    · exact hlater
    · exact hdrawn (h.drawn other hbefore)
  · intro other hother
    rcases hrows other hother with rfl | hbefore
    · exact hgranted
    · exact h.granted other hbefore

end Leases

/-! ## The relation -/

structure Mirrors (drawn : List UUID) (memory : InMemoryFlowRepository)
    (repo : PostgresFlowRepository) : Prop where
  runs : MirrorsRuns memory.states repo.flowRuns
  events : MirrorsEvents memory.events repo.flowEvents
  leases : MirrorsLeases drawn memory.leases repo.flowLeases
  owned : ∀ row ∈ repo.flowEvents, row.runId ∈ repo.flowRuns.map (·.id)

/-- A transaction against an operation of the in-memory repository.  Errors are compared by their
kind, and the operation that raised changed nothing. -/
def Matches (drawn : List UUID) (memory : InMemoryFlowRepository) {α : Type} :
    Except FlowError α × InMemoryFlowRepository →
      Except FlowError (α × PostgresFlowRepository) → Prop
  | (.ok reply, after), .ok (reply', after') => reply = reply' ∧ Mirrors drawn after after'
  | (.error e, after), .error e' => e.typeName = e'.typeName ∧ after = memory
  | _, _ => False

section Operations

variable {drawn : List UUID} {memory : InMemoryFlowRepository} {repo : PostgresFlowRepository}
variable {now : Time} {runId : UUID} {drafts : List FlowEventDraft}

theorem Mirrors.lockState (h : Mirrors drawn memory repo) (runId : UUID) :
    repo.lockState runId =
      orRaise (memory.states runId) (InMemoryFlowRepository.notFound runId) := by
  unfold PostgresFlowRepository.lockState
  rw [h.runs.states]
  cases hrow : rowOf (·.id) repo.flowRuns runId with
  | none => rfl
  | some row => exact h.runs.valid row (rowOf_some hrow).1

theorem Mirrors.validateExecutionToken (h : Mirrors drawn memory repo) (runId : UUID)
    (token : Option UUID) (now : Time) :
    repo.validateExecutionToken runId token now = memory.validateExecutionToken runId token now := by
  unfold PostgresFlowRepository.validateExecutionToken InMemoryFlowRepository.validateExecutionToken
  unfold PostgresFlowRepository.leaseRow
  rw [h.leases.leases]
  cases rowOf (·.runId) repo.flowLeases runId with
  | none =>
    cases token with
    | none => rfl
    | some t => rfl
  | some row =>
    simp only [Option.map_some, raiseIf, FlowExecutionLease.isExpired, decide_eq_true_eq]
    rfl

theorem Mirrors.nextSequence (h : Mirrors drawn memory repo) (runId : UUID) :
    repo.nextSequence runId = (memory.events runId).length + 1 := by
  unfold PostgresFlowRepository.nextSequence
  rw [h.events.next]

theorem insertEvents_ok (repo : PostgresFlowRepository)
    (hevents : MirrorsEvents memory.events repo.flowEvents)
    (hrun : runId ∈ repo.flowRuns.map (·.id)) (drafts : List FlowEventDraft) :
    repo.insertEvents (materializeEvents runId drafts ((memory.events runId).length + 1)) =
      .ok { repo with
        flowEvents := repo.flowEvents ++
          (materializeEvents runId drafts ((memory.events runId).length + 1)).map eventValues } := by
  have hkeys := (hevents.append runId drafts).keys
  have howned : ¬ ∃ event ∈ materializeEvents runId drafts ((memory.events runId).length + 1),
      event.runId ∉ repo.flowRuns.map (·.id) := by
    rintro ⟨event, hevent, hnot⟩
    rw [materialized_run hevent] at hnot
    exact hnot hrun
  unfold insertEvents raiseIf
  dsimp only
  rw [if_neg (not_not.mpr hkeys), if_neg howned]
  rfl

theorem owned_append {rows : List FlowEventRow} {ids : List UUID}
    (howned : ∀ row ∈ rows, row.runId ∈ ids) (hrun : runId ∈ ids) (start : Nat) :
    ∀ row ∈ rows ++ (materializeEvents runId drafts start).map eventValues, row.runId ∈ ids := by
  intro row hrow
  rcases List.mem_append.mp hrow with hold | hnew
  · exact howned row hold
  · obtain ⟨event, hevent, rfl⟩ := List.mem_map.mp hnew
    show event.runId ∈ ids
    rw [materialized_run hevent]
    exact hrun

theorem Mirrors.create (h : Mirrors drawn memory repo) {state : FlowRunState}
    (hvalid : validateFlow state = .ok state) (drafts : List FlowEventDraft) :
    Matches drawn memory (memory.create state drafts) (repo.create state drafts) := by
  unfold InMemoryFlowRepository.create PostgresFlowRepository.create raiseIf
  by_cases hrevision : state.revision ≠ 1
  · rw [if_pos hrevision, if_pos hrevision]
    exact ⟨rfl, rfl⟩
  rw [if_neg hrevision, if_neg hrevision]
  by_cases hempty : drafts.isEmpty = true
  · rw [if_pos hempty, if_pos hempty]
    exact ⟨rfl, rfl⟩
  rw [if_neg hempty, if_neg hempty]
  cases hstate : memory.states state.runId with
  | some current =>
    have hinsert : repo.insertRun state = .error integrityError := by
      have hdup : ¬ ((repo.flowRuns ++ [flowValues state]).map (·.id)).Nodup := by
        rw [List.map_append, List.map_singleton, List.nodup_append]
        intro hnodup
        exact hnodup.2.2 state.runId (h.runs.mem hstate) state.runId (List.mem_singleton.mpr rfl) rfl
      unfold insertRun raiseIf
      dsimp only
      rw [if_pos hdup]
      rfl
    rw [hinsert]
    exact ⟨rfl, rfl⟩
  | none =>
    have hruns := h.runs.insert hstate hvalid
    have hinsert : repo.insertRun state =
        .ok { repo with flowRuns := repo.flowRuns ++ [flowValues state] } := by
      unfold insertRun raiseIf
      dsimp only
      rw [if_neg (not_not.mpr hruns.ids)]
      rfl
    -- a Run without a row has no events
    have hnone : memory.events state.runId = [] := by
      rw [h.events.events, List.map_eq_nil_iff, List.filter_eq_nil_iff]
      intro row hrow
      have hne : row.runId ≠ state.runId := by
        intro heq
        exact h.runs.none_iff.mp hstate (heq ▸ h.owned row hrow)
      simpa using hne
    have hmem : state.runId ∈ (repo.flowRuns ++ [flowValues state]).map (·.id) := by
      rw [List.map_append]
      exact List.mem_append_right _ (List.mem_singleton.mpr rfl)
    have hevents := insertEvents_ok { repo with flowRuns := repo.flowRuns ++ [flowValues state] }
      h.events hmem drafts
    have happend := h.events.append state.runId drafts
    rw [hnone] at hevents happend
    rw [hinsert]
    dsimp only [bind, Except.bind]
    simp only [List.length_nil, Nat.zero_add] at hevents
    rw [hevents]
    refine ⟨(materializeEvents_eq 1).symm, hruns, happend, h.leases, ?_⟩
    apply owned_append _ hmem
    intro row hrow
    rw [List.map_append]
    exact List.mem_append_left _ (h.owned row hrow)

theorem Mirrors.commit (h : Mirrors drawn memory repo) {state : FlowRunState}
    (hvalid : validateFlow state = .ok state) (expected : Nat) (drafts : List FlowEventDraft)
    (token : Option UUID) :
    Matches drawn memory (memory.commit now state expected drafts token)
      (repo.commit now state expected drafts token) := by
  unfold InMemoryFlowRepository.commit PostgresFlowRepository.commit raiseIf
  by_cases hempty : drafts.isEmpty = true
  · rw [if_pos hempty, if_pos hempty]
    exact ⟨rfl, rfl⟩
  rw [if_neg hempty, if_neg hempty, h.lockState, h.validateExecutionToken, h.nextSequence]
  cases hstate : memory.states state.runId with
  | none => exact ⟨rfl, rfl⟩
  | some current =>
    simp only [orRaise, bind, Except.bind]
    cases memory.validateExecutionToken state.runId token now with
    | error e => exact ⟨rfl, rfl⟩
    | ok u =>
      cases hreplacement : validateFlowReplacement current state expected with
      | error e => exact ⟨rfl, rfl⟩
      | ok v =>
        obtain ⟨hexpected, -⟩ :=
          InMemoryFlowRepository.validateFlowReplacement_ok hreplacement
        subst hexpected
        have hcount := h.runs.rowcount hstate
        have hrun : state.runId ∈ (setRow (·.id) repo.flowRuns (flowValues state)).map (·.id) := by
          rw [map_key_setRow]
          exact h.runs.mem hstate
        have hinsert := insertEvents_ok
          { repo with flowRuns := setRow (·.id) repo.flowRuns (flowValues state) }
          h.events hrun drafts
        simp only [hcount, ne_eq, not_true_eq_false, if_false, h.runs.update hstate, hinsert]
        refine ⟨(materializeEvents_eq _).symm, h.runs.replace hstate hvalid,
          h.events.append state.runId drafts, h.leases, ?_⟩
        apply owned_append _ hrun
        intro row hrow
        rw [map_key_setRow]
        exact h.owned row hrow

theorem Mirrors.appendEvents (h : Mirrors drawn memory repo) (runId : UUID) (expected : Nat)
    (drafts : List FlowEventDraft) (token : Option UUID) :
    Matches drawn memory (memory.appendEvents now runId expected drafts token)
      (repo.appendEvents now runId expected drafts token) := by
  unfold InMemoryFlowRepository.appendEvents PostgresFlowRepository.appendEvents raiseIf
  by_cases hempty : drafts.isEmpty = true
  · rw [if_pos hempty, if_pos hempty]
    exact ⟨rfl, rfl⟩
  rw [if_neg hempty, if_neg hempty, h.lockState, h.validateExecutionToken, h.nextSequence]
  cases hstate : memory.states runId with
  | none => exact ⟨rfl, rfl⟩
  | some current =>
    simp only [orRaise, bind, Except.bind]
    cases memory.validateExecutionToken runId token now with
    | error e => exact ⟨rfl, rfl⟩
    | ok u =>
      by_cases hrevision : current.revision ≠ expected
      · simp only [if_pos hrevision]
        exact ⟨rfl, rfl⟩
      · have hrun := h.runs.mem hstate
        simp only [if_neg hrevision, insertEvents_ok repo h.events hrun drafts]
        exact ⟨(materializeEvents_eq _).symm, h.runs, h.events.append runId drafts, h.leases,
          owned_append h.owned hrun _⟩

theorem Mirrors.get (h : Mirrors drawn memory repo) (runId : UUID) :
    Matches drawn memory (memory.get runId) (repo.get runId) := by
  unfold InMemoryFlowRepository.get PostgresFlowRepository.get
  rw [h.runs.states]
  cases hrow : rowOf (·.id) repo.flowRuns runId with
  | none => exact ⟨rfl, rfl⟩
  | some row =>
    simp only [Option.map_some, h.runs.valid row (rowOf_some hrow).1]
    exact ⟨rfl, h⟩

theorem Mirrors.listEvents (h : Mirrors drawn memory repo) (runId : UUID) :
    Matches drawn memory (memory.listEvents runId) (repo.events runId) := by
  unfold InMemoryFlowRepository.listEvents PostgresFlowRepository.events raiseIf
  rw [h.runs.states]
  cases rowOf (·.id) repo.flowRuns runId with
  | none => exact ⟨rfl, rfl⟩
  | some row =>
    simp only [Option.isNone_some, Bool.false_eq_true, if_false, h.events.read]
    exact ⟨rfl, h⟩

/-! ## Executions -/

theorem validateLeaseArguments_eq (ownerId : String) (ttlSeconds : ℚ) :
    validateLeaseArguments ownerId ttlSeconds = Flows.validateLeaseArguments ownerId ttlSeconds := by
  unfold validateLeaseArguments Flows.validateLeaseArguments raiseIf
  by_cases hblank : isBlank ownerId = true
  · rw [if_pos hblank, if_pos hblank]
    rfl
  rw [if_neg hblank, if_neg hblank]
  by_cases hlong : ownerId.length > 256
  · rw [if_pos hlong, if_pos hlong]
    rfl
  rw [if_neg hlong, if_neg hlong]
  rfl

theorem owner_bounded {ownerId : String} {ttlSeconds : ℚ}
    (h : Flows.validateLeaseArguments ownerId ttlSeconds = .ok ()) :
    1 ≤ ownerId.length ∧ ownerId.length ≤ 256 := by
  unfold Flows.validateLeaseArguments at h
  by_cases hblank : isBlank ownerId = true
  · rw [if_pos hblank] at h
    cases h
  · rw [if_neg hblank] at h
    by_cases hlong : ownerId.length > 256
    · rw [if_pos hlong] at h
      cases h
    · exact ⟨length_pos_of_not_blank (by simpa using hblank), by omega⟩

theorem refuseHeld_eq (runId : UUID) (row : FlowLeaseRow) :
    refuseHeld runId now (some row) =
      if row.active = true ∧ row.lease.isExpired now = false then
        .error (.leaseUnavailable s!"Flow Run '{uuidText runId}' is leased by '{row.ownerId}'")
      else .ok () := by
  unfold refuseHeld raiseIf FlowExecutionLease.isExpired
  simp only [decide_eq_false_iff_not, not_le]
  rfl

theorem Mirrors.insertLease (h : Mirrors drawn memory repo) {row : FlowLeaseRow}
    {current : FlowRunState} (hstate : memory.states row.runId = some current)
    (hnew : repo.leaseRow row.runId = none) (hfresh : row.token ∉ drawn) (hgranted : Granted row) :
    ∃ after, repo.insertLease row = .ok after ∧
      Mirrors (drawn ++ [row.token]) (memory.setLease row.runId row.lease row.active) after := by
  have hleases := h.leases.insert hnew hfresh hgranted
  have hrun : ¬ row.runId ∉ repo.flowRuns.map (·.id) := not_not.mpr (h.runs.mem hstate)
  refine ⟨{ repo with flowLeases := repo.flowLeases ++ [row] }, ?_, h.runs, h.events, hleases,
    h.owned⟩
  unfold PostgresFlowRepository.insertLease raiseIf
  dsimp only
  rw [if_neg (not_not.mpr hleases.ids), if_neg (not_not.mpr hleases.tokens), if_neg hrun]
  rfl

theorem Mirrors.updateLease (h : Mirrors drawn memory repo) {row old : FlowLeaseRow}
    (hold : repo.leaseRow row.runId = some old)
    (htoken : row.token = old.token ∨ row.token ∉ drawn) (hgranted : Granted row)
    {later : List UUID} (hdrawn : drawn ⊆ later) (hlater : row.token ∈ later) :
    ∃ after, repo.updateLease row = .ok after ∧
      Mirrors later (memory.setLease row.runId row.lease row.active) after := by
  have hleases := h.leases.replace hold htoken hgranted hdrawn hlater
  refine ⟨{ repo with flowLeases := setRow (·.runId) repo.flowLeases row }, ?_, h.runs, h.events,
    hleases, h.owned⟩
  unfold PostgresFlowRepository.updateLease raiseIf
  dsimp only
  rw [if_neg (not_not.mpr hleases.tokens)]
  rfl

theorem Mirrors.lease (h : Mirrors drawn memory repo) {row : FlowLeaseRow}
    (hrow : repo.leaseRow runId = some row) :
    memory.leases runId = some (row.lease, row.active) ∧ row.runId = runId ∧ Granted row ∧
      row.token ∈ drawn := by
  obtain ⟨hmem, hid⟩ := rowOf_some hrow
  have hlease := h.leases.leases runId
  rw [show rowOf (·.runId) repo.flowLeases runId = some row from hrow] at hlease
  exact ⟨hlease, hid, h.leases.granted row hmem, h.leases.drawn row hmem⟩

theorem Mirrors.lease_none (h : Mirrors drawn memory repo) (hrow : repo.leaseRow runId = none) :
    memory.leases runId = none := by
  have hlease := h.leases.leases runId
  rw [show rowOf (·.runId) repo.flowLeases runId = none from hrow] at hlease
  exact hlease

theorem Mirrors.acquiredLease (h : Mirrors drawn memory repo) (now : Time) (token runId : UUID)
    (ownerId : String) (ttlSeconds : ℚ) :
    PostgresFlowRepository.acquiredLease now token runId ownerId ttlSeconds (repo.leaseRow runId) =
      memory.grantedLease now token runId ownerId ttlSeconds := by
  unfold PostgresFlowRepository.acquiredLease InMemoryFlowRepository.grantedLease
  cases hrow : repo.leaseRow runId with
  | none => rw [h.lease_none hrow]
  | some row =>
    rw [(h.lease hrow).1]
    rfl

theorem Mirrors.grant (h : Mirrors drawn memory repo) (now : Time) {current : FlowRunState}
    (hstate : memory.states runId = some current) {token : UUID} (hfresh : token ∉ drawn)
    {ownerId : String} (howner : 1 ≤ ownerId.length ∧ ownerId.length ≤ 256) (ttlSeconds : ℚ) :
    let lease := memory.grantedLease now token runId ownerId ttlSeconds
    constructLease lease = .ok lease ∧
      ∃ after, repo.storeLease (repo.leaseRow runId) (leaseValues lease true) = .ok after ∧
        Mirrors (drawn ++ [token]) (memory.setLease runId lease true) after := by
  intro lease
  have hlease : lease = PostgresFlowRepository.acquiredLease now token runId ownerId ttlSeconds
      (repo.leaseRow runId) := (h.acquiredLease now token runId ownerId ttlSeconds).symm
  have hattempt : 1 ≤ lease.attempt := by
    rw [hlease]
    unfold PostgresFlowRepository.acquiredLease
    cases repo.leaseRow runId with
    | none => exact Nat.le_refl 1
    | some row => exact Nat.le_add_left 1 row.attempt
  have hgranted : Granted (leaseValues lease true) := ⟨howner, hattempt⟩
  refine ⟨constructLease_ok howner.1 howner.2 hattempt, ?_⟩
  unfold storeLease
  cases hprior : repo.leaseRow runId with
  | none => exact h.insertLease hstate hprior hfresh hgranted
  | some row =>
    exact h.updateLease hprior (.inr hfresh) hgranted (List.subset_append_left _ _)
      (List.mem_append_right _ (List.mem_singleton.mpr rfl))

theorem Mirrors.acquireExecution (h : Mirrors drawn memory repo) {token : UUID}
    (hfresh : token ∉ drawn) (runId : UUID) (ownerId : String) (ttlSeconds : ℚ) :
    Matches (drawn ++ [token]) memory
      (memory.acquireExecution now token runId ownerId ttlSeconds)
      (repo.acquireExecution now token runId ownerId ttlSeconds) := by
  unfold InMemoryFlowRepository.acquireExecution PostgresFlowRepository.acquireExecution raiseIf
  rw [validateLeaseArguments_eq, h.lockState]
  cases harguments : Flows.validateLeaseArguments ownerId ttlSeconds with
  | error e => exact ⟨rfl, rfl⟩
  | ok u =>
    cases hstate : memory.states runId with
    | none => exact ⟨rfl, rfl⟩
    | some current =>
      simp only [orRaise, bind, Except.bind]
      by_cases hterminal : current.status.terminal = true
      · simp only [if_pos hterminal]
        exact ⟨rfl, rfl⟩
      obtain ⟨hconstruct, after, hstore, hafter⟩ :=
        h.grant now hstate hfresh (owner_bounded harguments) ttlSeconds
      simp only [if_neg hterminal, h.acquiredLease, hconstruct, hstore]
      cases hprior : repo.leaseRow runId with
      | none =>
        simp only [h.lease_none hprior, refuseHeld]
        exact ⟨rfl, hafter⟩
      | some row =>
        obtain ⟨hlease, -⟩ := h.lease hprior
        rw [hlease, refuseHeld_eq]
        cases hactive : row.active with
        | false =>
          simp only [Bool.false_eq_true, false_and, if_false]
          exact ⟨rfl, hafter⟩
        | true =>
          cases hexpired : row.lease.isExpired now with
          | false =>
            simp only [hexpired, Bool.false_eq_true, if_false, and_self, if_true]
            exact ⟨rfl, rfl⟩
          | true =>
            simp only [hexpired, Bool.true_eq_false, and_false, if_false, if_true]
            exact ⟨rfl, hafter⟩

theorem Mirrors.renewExecution (h : Mirrors drawn memory repo) {lease : FlowExecutionLease}
    (hexists : memory.states lease.runId ≠ none) (ttlSeconds : ℚ) :
    Matches drawn memory (memory.renewExecution now lease ttlSeconds)
      (repo.renewExecution now lease ttlSeconds) := by
  unfold InMemoryFlowRepository.renewExecution PostgresFlowRepository.renewExecution
  unfold InMemoryFlowRepository.requireLease raiseIf
  rw [validateLeaseArguments_eq, h.lockState]
  cases Flows.validateLeaseArguments lease.ownerId ttlSeconds with
  | error e => exact ⟨rfl, rfl⟩
  | ok u =>
    obtain ⟨current, hstate⟩ := Option.ne_none_iff_exists'.mp hexists
    simp only [hstate, orRaise, bind, Except.bind]
    cases hrow : repo.leaseRow lease.runId with
    | none =>
      simp only [h.lease_none hrow]
      exact ⟨rfl, rfl⟩
    | some row =>
      obtain ⟨hlease, hid, hgranted, hdrawn⟩ := h.lease hrow
      simp only [hlease]
      have hsame : (row.active = false ∨ row.lease.token ≠ lease.token ∨
          row.lease.isExpired now = true) ↔
          (row.active = false ∨ row.token ≠ lease.token ∨ row.expiresAt ≤ now) := by
        unfold FlowExecutionLease.isExpired
        rw [decide_eq_true_eq]
        rfl
      by_cases hbad : row.active = false ∨ row.token ≠ lease.token ∨ row.expiresAt ≤ now
      · simp only [if_pos (hsame.mpr hbad), if_pos hbad]
        exact ⟨rfl, rfl⟩
      · have hrenewed : Granted (leaseValues (row.lease.renewed now ttlSeconds) true) :=
          ⟨hgranted.owner, hgranted.attempt⟩
        have hrun : repo.leaseRow (leaseValues (row.lease.renewed now ttlSeconds) true).runId =
            some row := by
          rw [← hrow, ← hid]
          rfl
        obtain ⟨after, hupdate, hafter⟩ := h.updateLease hrun (.inl rfl) hrenewed
          (List.Subset.refl _) hdrawn
        rw [if_neg fun hnot => hbad (hsame.mp hnot)]
        simp only [if_neg hbad, hgranted.read]
        rw [show repo.updateLease (leaseValues { row.lease with
          heartbeatAt := now, expiresAt := now + timedelta ttlSeconds } true) = .ok after from
            hupdate]
        rw [← hid]
        exact ⟨rfl, hafter⟩

theorem Mirrors.releaseExecution (h : Mirrors drawn memory repo) {lease : FlowExecutionLease}
    (hexists : memory.states lease.runId ≠ none) :
    Matches drawn memory (memory.releaseExecution lease) (repo.releaseExecution lease) := by
  unfold InMemoryFlowRepository.releaseExecution PostgresFlowRepository.releaseExecution
  unfold InMemoryFlowRepository.requireLease raiseIf
  rw [h.lockState]
  obtain ⟨current, hstate⟩ := Option.ne_none_iff_exists'.mp hexists
  simp only [hstate, orRaise, bind, Except.bind]
  cases hrow : repo.leaseRow lease.runId with
  | none =>
    simp only [h.lease_none hrow]
    exact ⟨rfl, rfl⟩
  | some row =>
    obtain ⟨hlease, hid, hgranted, hdrawn⟩ := h.lease hrow
    simp only [hlease]
    by_cases htoken : row.token ≠ lease.token
    · rw [if_pos (show row.lease.token ≠ lease.token from htoken)]
      simp only [if_pos htoken]
      exact ⟨rfl, rfl⟩
    · rw [if_neg (show ¬ row.lease.token ≠ lease.token from htoken)]
      simp only [if_neg htoken]
      cases hactive : row.active with
      | false => exact ⟨rfl, h⟩
      | true =>
        have hreleased : Granted { row with active := false } := ⟨hgranted.owner, hgranted.attempt⟩
        have hrun : repo.leaseRow { row with active := false }.runId = some row := by
          rw [← hrow, ← hid]
        obtain ⟨after, hupdate, hafter⟩ := h.updateLease hrun (.inl rfl) hreleased
          (List.Subset.refl _) hdrawn
        simp only [if_true, hupdate]
        rw [← hid]
        exact ⟨rfl, hafter⟩

theorem Matches.map {α β : Type} {outcome : Except FlowError α × InMemoryFlowRepository}
    {transaction : Except FlowError (α × PostgresFlowRepository)}
    (h : Matches drawn memory outcome transaction) (f : α → β) :
    Matches drawn memory (Prod.map (·.map f) id outcome)
      (transaction.map (Prod.map f id)) := by
  obtain ⟨outcome, after⟩ := outcome
  cases outcome with
  | error e =>
    cases transaction with
    | error e' => exact h
    | ok result => exact h
  | ok reply =>
    cases transaction with
    | error e' => exact h
    | ok result =>
      obtain ⟨rfl, hafter⟩ := h
      exact ⟨rfl, hafter⟩

theorem Mirrors.mono (h : Mirrors drawn memory repo) (tokens : List UUID) :
    Mirrors (drawn ++ tokens) memory repo :=
  ⟨h.runs, h.events, h.leases.mono tokens, h.owned⟩

theorem Matches.mono {α : Type} {outcome : Except FlowError α × InMemoryFlowRepository}
    {transaction : Except FlowError (α × PostgresFlowRepository)}
    (h : Matches drawn memory outcome transaction) (tokens : List UUID) :
    Matches (drawn ++ tokens) memory outcome transaction := by
  obtain ⟨outcome, after⟩ := outcome
  cases outcome with
  | error e =>
    cases transaction with
    | error e' => exact h
    | ok result => exact h
  | ok reply =>
    cases transaction with
    | error e' => exact h
    | ok result => exact ⟨h.1, h.2.mono tokens⟩

end Operations

end PostgresFlowRepository

/-! ## Sequences of calls -/

namespace FlowRepositoryOp

def stored : FlowRepositoryOp → Option FlowRunState
  | .create state _ => some state
  | .commit state _ _ _ => some state
  | _ => none

def drawn : FlowRepositoryOp → Option UUID
  | .acquireExecution token _ _ _ => some token
  | _ => none

def lease : FlowRepositoryOp → Option FlowExecutionLease
  | .renewExecution lease _ => some lease
  | .releaseExecution lease => some lease
  | _ => none

end FlowRepositoryOp

def drawnTokens (calls : List FlowRepositoryCall) : List UUID := calls.filterMap (·.op.drawn)

/-- The states that are stored satisfy the validators, a token is drawn once, and a lease is used
for a Flow Run that exists. -/
structure AdmissibleCalls (calls : List FlowRepositoryCall) : Prop where
  valid : ∀ call ∈ calls, ∀ state, call.op.stored = some state → validateFlow state = .ok state
  tokens : (drawnTokens calls).Nodup
  existing : ∀ before call after, calls = before ++ call :: after →
    ∀ lease, call.op.lease = some lease → (memoryAfter before).states lease.runId ≠ none

/-- Both repositories return the same, or raise errors of one kind and stay as they are. -/
def SameStep (call : FlowRepositoryCall) (memory : InMemoryFlowRepository)
    (repo : PostgresFlowRepository) : Prop :=
  match call.perform memory, repo.perform call with
  | (.ok reply, _), (.ok reply', _) => reply = reply'
  | (.error e, memory'), (.error e', repo') =>
    e.typeName = e'.typeName ∧ memory' = memory ∧ repo' = repo
  | _, _ => False

section Calls

open PostgresFlowRepository

variable {drawn : List UUID} {memory : InMemoryFlowRepository} {repo : PostgresFlowRepository}
variable {call : FlowRepositoryCall}

theorem transaction_matches (h : Mirrors drawn memory repo)
    (hvalid : ∀ state, call.op.stored = some state → validateFlow state = .ok state)
    (hfresh : ∀ token, call.op.drawn = some token → token ∉ drawn)
    (hexisting : ∀ lease, call.op.lease = some lease → memory.states lease.runId ≠ none) :
    PostgresFlowRepository.Matches (drawn ++ call.op.drawn.toList) memory (call.perform memory)
      (repo.transaction call) := by
  unfold FlowRepositoryCall.perform PostgresFlowRepository.transaction
  cases hop : call.op with
  | create state drafts =>
    rw [hop] at hvalid
    exact ((h.create (hvalid state rfl) drafts).map _).mono []
  | get runId =>
    exact ((h.get runId).map _).mono []
  | commit state expected drafts token =>
    rw [hop] at hvalid
    exact ((h.commit (hvalid state rfl) expected drafts token).map _).mono []
  | appendEvents runId expected drafts token =>
    exact ((h.appendEvents runId expected drafts token).map _).mono []
  | events runId =>
    exact ((h.listEvents runId).map _).mono []
  | acquireExecution token runId ownerId ttl =>
    rw [hop] at hfresh
    exact (h.acquireExecution (hfresh token rfl) runId ownerId ttl).map _
  | renewExecution lease ttl =>
    rw [hop] at hexisting
    exact ((h.renewExecution (hexisting lease rfl) ttl).map _).mono []
  | releaseExecution lease =>
    rw [hop] at hexisting
    exact ((h.releaseExecution (hexisting lease rfl)).map _).mono []

/-- One call returns the same in both repositories, which still stand for one another. -/
theorem step_matches (h : Mirrors drawn memory repo)
    (hmatches : PostgresFlowRepository.Matches (drawn ++ call.op.drawn.toList) memory
      (call.perform memory) (repo.transaction call)) :
    SameStep call memory repo ∧
      Mirrors (drawn ++ call.op.drawn.toList) (call.perform memory).2 (repo.perform call).2 := by
  unfold SameStep PostgresFlowRepository.perform
  cases hmemory : call.perform memory with
  | mk outcome after =>
    rw [hmemory] at hmatches
    cases htransaction : repo.transaction call with
    | error e' =>
      rw [htransaction] at hmatches
      cases outcome with
      | error e =>
        obtain ⟨hkind, rfl⟩ := hmatches
        exact ⟨⟨hkind, rfl, rfl⟩, h.mono _⟩
      | ok reply => exact hmatches.elim
    | ok result =>
      rw [htransaction] at hmatches
      cases outcome with
      | error e => exact hmatches.elim
      | ok reply => exact hmatches

theorem AdmissibleCalls.start {calls rest : List FlowRepositoryCall}
    (h : AdmissibleCalls (calls ++ rest)) : AdmissibleCalls calls where
  valid call hcall := h.valid call (List.mem_append_left rest hcall)
  tokens := by
    have hall := h.tokens
    unfold drawnTokens at hall ⊢
    rw [List.filterMap_append] at hall
    exact hall.of_append_left
  existing before call after hsplit := by
    apply h.existing before call (after ++ rest)
    rw [hsplit, List.append_assoc, List.cons_append]

theorem AdmissibleCalls.last {before : List FlowRepositoryCall}
    (h : AdmissibleCalls (before ++ [call])) (hmirrors : Mirrors (drawnTokens before)
      (memoryAfter before) (PostgresFlowRepository.after before)) :
    PostgresFlowRepository.Matches (drawnTokens before ++ call.op.drawn.toList) (memoryAfter before)
      (call.perform (memoryAfter before)) ((PostgresFlowRepository.after before).transaction call) := by
  apply transaction_matches hmirrors
  · exact h.valid call (List.mem_append_right before (List.mem_singleton.mpr rfl))
  · intro token htoken hmem
    have hall := h.tokens
    unfold drawnTokens at hall hmem
    rw [List.filterMap_append, List.nodup_append] at hall
    apply hall.2.2 token hmem token _ rfl
    rw [List.filterMap_cons, htoken]
    exact List.mem_singleton.mpr rfl
  · exact h.existing before call [] rfl

/-- After any sequence of calls the tables stand for the dictionaries. -/
theorem mirrors_after {calls : List FlowRepositoryCall} (hcalls : AdmissibleCalls calls) :
    Mirrors (drawnTokens calls) (memoryAfter calls) (PostgresFlowRepository.after calls) := by
  induction calls using List.reverseRecOn with
  | nil =>
    refine ⟨⟨List.nodup_nil, fun _ => rfl, ?_, ?_⟩, ⟨fun _ => rfl, ?_, fun _ => Consecutive.nil⟩,
      ⟨List.nodup_nil, List.nodup_nil, fun _ => rfl, ?_, ?_⟩, ?_⟩ <;>
    · intro row hrow
      cases hrow
  | append_singleton before call ih =>
    have hmirrors := ih hcalls.start
    have hstep := (step_matches hmirrors (hcalls.last hmirrors)).2
    have htokens : drawnTokens (before ++ [call]) = drawnTokens before ++ call.op.drawn.toList := by
      unfold drawnTokens
      rw [List.filterMap_append]
      cases hdrawn : call.op.drawn with
      | none => simp [hdrawn]
      | some token => simp [hdrawn]
    unfold memoryAfter PostgresFlowRepository.after at hstep ⊢
    rw [htokens, List.foldl_append, List.foldl_append]
    exact hstep

end Calls

/-- In every sequence of calls, each call returns the same states, events and leases in both
repositories, or raises an error of the same kind in both and changes neither. -/
theorem flow_repositories_agree {calls before after : List FlowRepositoryCall}
    {call : FlowRepositoryCall} (hcalls : AdmissibleCalls calls)
    (hcall : calls = before ++ call :: after) :
    SameStep call (memoryAfter before) (PostgresFlowRepository.after before) := by
  have hstart : AdmissibleCalls (before ++ [call]) := by
    rw [hcall, ← List.singleton_append, ← List.append_assoc] at hcalls
    exact hcalls.start
  have hmirrors := mirrors_after hstart.start
  exact (step_matches hmirrors (hstart.last hmirrors)).1

def sampleFlow (revision : Nat) (status : RunStatus) : FlowRunState :=
  { runId := 5, definitionId := "flow", definitionVersion := "1"
    definitionFingerprint := "0123456789abcdef0123456789abcdef0123456789abcdef0123456789abcdef"
    budget := {}, deadlineAt := none, revision := revision, status := status, createdAt := 0 }

/-- A Flow Run is created, claimed, started by its holder and claimed again after a release. -/
def sampleRepositoryCalls : List FlowRepositoryCall :=
  [⟨0, .create (sampleFlow 1 .created) [⟨.flowCreated, []⟩]⟩,
    ⟨1, .acquireExecution 20 5 "worker" 60⟩,
    ⟨2, .commit (sampleFlow 2 .running) 1 [⟨.flowStarted, []⟩] (some 20)⟩,
    ⟨3, .commit (sampleFlow 2 .running) 1 [⟨.flowStarted, []⟩] (some 20)⟩,
    ⟨4, .releaseExecution ⟨5, 20, "worker", 1, 1, 1, 60000001⟩⟩,
    ⟨5, .acquireExecution 21 5 "other" 60⟩, ⟨6, .events 5⟩, ⟨7, .get 5⟩]

theorem sampleFlow_valid {revision : Nat} {status : RunStatus} (hrevision : 1 ≤ revision)
    (hstatus : status = .created ∨ status = .running) :
    validateFlow (sampleFlow revision status) = .ok (sampleFlow revision status) := by
  have hfingerprint : fingerprintPattern (sampleFlow revision status).definitionFingerprint = true := by
    show fingerprintPattern "0123456789abcdef0123456789abcdef0123456789abcdef0123456789abcdef" = true
    decide
  have hbudget : (sampleFlow revision status).budget.Valid := by
    show FlowBudget.Valid {}
    decide
  have hstate : (sampleFlow revision status).validateState = .ok () := by
    rcases hstatus with rfl | rfl
    · rfl
    · rfl
  rw [validateFlow_ok]
  refine ⟨hfingerprint, hbudget, hrevision, ?_, hstate, ?_⟩ <;>
  · intro inv hinv
    cases hinv

theorem sampleRepositoryCalls_admissible : AdmissibleCalls sampleRepositoryCalls where
  valid := by
    intro call hcall state hstate
    simp only [sampleRepositoryCalls, List.mem_cons, List.not_mem_nil, or_false] at hcall
    rcases hcall with rfl | rfl | rfl | rfl | rfl | rfl | rfl | rfl <;> cases hstate
    · exact sampleFlow_valid (by decide) (.inl rfl)
    · exact sampleFlow_valid (by decide) (.inr rfl)
    · exact sampleFlow_valid (by decide) (.inr rfl)
  tokens := by decide
  existing := by
    intro before call after hsplit lease hlease
    have hcall : sampleRepositoryCalls[before.length]? = some call := by
      rw [hsplit]
      simp
    have hbefore : before = sampleRepositoryCalls.take before.length := by
      rw [hsplit, List.take_left]
    have hlength : before.length = 4 := by
      have honly : ∀ i < 8,
          (sampleRepositoryCalls[i]?.any fun call => call.op.lease.isSome) = true → i = 4 := by
        decide
      apply honly before.length (List.getElem?_eq_some_iff.mp hcall).1
      rw [hcall, Option.any_some, hlease]
      rfl
    rw [hlength] at hcall hbefore
    cases hcall
    cases hlease
    rw [hbefore]
    exact Option.isSome_iff_ne_none.mp (show ((memoryAfter (sampleRepositoryCalls.take 4)).states
      5).isSome = true by decide +kernel)

-- The second commit comes with a revision that is no longer the current one.
theorem flow_repositories_agree_released :
    (∀ before call after, sampleRepositoryCalls = before ++ call :: after →
      SameStep call (memoryAfter before) (PostgresFlowRepository.after before)) ∧
    ((memoryAfter sampleRepositoryCalls).leases 5).map (fun lease => (lease.1.attempt, lease.2)) =
      some (2, true) ∧
    ((memoryAfter sampleRepositoryCalls).events 5).map (·.sequence) = [1, 2] :=
  ⟨fun before call after h => flow_repositories_agree sampleRepositoryCalls_admissible h,
    by decide +kernel, by decide +kernel⟩

end Postgres
end BaseAgent
