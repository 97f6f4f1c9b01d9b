import BaseAgent.Resources.Manager

/-!
# Which resources are released

Until the manager is closed it knows every context manager that has been entered, in order.
Closing it exits them in reverse order, up to the first call of an exit or of the event store that
raises an exception out of the loop.  What has not been exited then never is, since a closed manager
does nothing.
-/

namespace BaseAgent
namespace Resources

def entered (log : List Call) : List Nat :=
  log.filterMap fun
    | .enter manager true => some manager
    | _ => none

def exited (log : List Call) : List Nat :=
  log.filterMap fun
    | .exit manager => some manager
    | _ => none

/-- Every context manager that has been entered has been exited once, the last one first. -/
def ReleasedOnce (s : Scope) : Prop :=
  (entered s.log).Nodup ∧ exited s.log = (entered s.log).reverse

def Call.quiet : Call → Bool
  | .enter _ true | .exit _ => false
  | _ => true

theorem entered_quiet {call : Call} (h : call.quiet = true) (log : List Call) :
    entered (log ++ [call]) = entered log := by
  unfold entered
  rw [List.filterMap_append]
  cases call with
  | enter manager succeeded =>
    cases succeeded with
    | true => cases h
    | false => simp
  | _ => simp

theorem exited_quiet {call : Call} (h : call.quiet = true) (log : List Call) :
    exited (log ++ [call]) = exited log := by
  unfold exited
  rw [List.filterMap_append]
  cases call with
  | exit manager => cases h
  | _ => simp

theorem entered_enter (log : List Call) (manager : Nat) :
    entered (log ++ [.enter manager true]) = entered log ++ [manager] := by
  simp [entered]

theorem entered_exit (log : List Call) (manager : Nat) :
    entered (log ++ [.exit manager]) = entered log := by
  simp [entered]

theorem exited_enter (log : List Call) (manager : Nat) (succeeded : Bool) :
    exited (log ++ [.enter manager succeeded]) = exited log := by
  simp [exited]

theorem exited_exit (log : List Call) (manager : Nat) :
    exited (log ++ [.exit manager]) = exited log ++ [manager] := by
  simp [exited]

/-! ## Before the manager is closed -/

/-- The manager knows what has been entered, and nothing has been exited. -/
structure Known (s : Scope) : Prop where
  managers : s.order.map (dictGet s.acquired) = (entered s.log).map some
  nothing : exited s.log = []
  old : ∀ m ∈ entered s.log, m < s.log.length
  nodup : (entered s.log).Nodup

namespace Known

variable {s : Scope}

theorem quiet (h : Known s) {call : Call} (hquiet : call.quiet = true) : Known (s.record call) where
  managers := by
    show _ = (entered (s.log ++ [call])).map some
    rw [entered_quiet hquiet]
    exact h.managers
  nothing := by
    show exited (s.log ++ [call]) = []
    rw [exited_quiet hquiet]
    exact h.nothing
  old m hm := by
    have hm' : m ∈ entered s.log := by rwa [← entered_quiet hquiet]
    have := h.old m hm'
    show m < (s.log ++ [call]).length
    rw [List.length_append]
    omega
  nodup := by
    show (entered (s.log ++ [call])).Nodup
    rw [entered_quiet hquiet]
    exact h.nodup

theorem fail (h : Known s) (failure : ResourceFailure) : Known (s.fail failure) :=
  ⟨h.managers, h.nothing, h.old, h.nodup⟩

theorem emit (h : Known s) (env : ResourceEnv) (event : ResourceEvent) :
    Known (s.emit env event).2 :=
  h.quiet rfl

theorem not_mem (h : Known s) {name : String} (hname : dictGet s.acquired name = none) :
    name ∉ s.order := by
  intro hmem
  have hget : dictGet s.acquired name ∈ (entered s.log).map some := by
    rw [← h.managers]
    exact List.mem_map_of_mem hmem
  rw [hname] at hget
  obtain ⟨m, -, hm⟩ := List.mem_map.mp hget
  cases hm

/-- A context manager has been entered, and is known under its name. -/
theorem enter (h : Known s) {name : String} (hname : dictGet s.acquired name = none) {m : Nat}
    (hm : m < s.log.length) (hnew : m ∉ entered s.log) :
    Known { s.record (.enter m true) with
      acquired := dictSet s.acquired name m, order := s.order ++ [name] } where
  managers := by
    show (s.order ++ [name]).map (dictGet (dictSet s.acquired name m)) =
      (entered (s.log ++ [.enter m true])).map some
    rw [entered_enter, List.map_append, List.map_append, ← h.managers]
    congr 1
    · apply List.map_congr_left
      intro other hother
      apply dictGet_set_ne
      rintro rfl
      exact h.not_mem hname hother
    · simp
  nothing := by
    show exited (s.log ++ [.enter m true]) = []
    rw [exited_enter]
    exact h.nothing
  old k hk := by
    have hk' : k ∈ entered s.log ++ [m] := by rwa [← entered_enter]
    show k < (s.log ++ [Call.enter m true]).length
    rw [List.length_append]
    rcases List.mem_append.mp hk' with hold | hlast
    · have := h.old k hold
      omega
    · obtain rfl := List.mem_singleton.mp hlast
      omega
  nodup := by
    show (entered (s.log ++ [.enter m true])).Nodup
    rw [entered_enter, List.nodup_append]
    refine ⟨h.nodup, List.nodup_singleton m, fun a ha b hb => ?_⟩
    obtain rfl := List.mem_singleton.mp hb
    rintro rfl
    exact hnew ha

end Known

/-- The manager is open, and knows what has been entered. -/
def Live (s : Scope) : Prop := s.state ≠ .closed ∧ Known s

section Manager

variable (env : ResourceEnv) (manager : ResourceManager) {s : Scope}

theorem acquire_live (h : Live s) {name : String} (hname : dictGet s.acquired name = none) :
    Live (acquire env name s).2 := by
  obtain ⟨hstate, hknown⟩ := h
  have hmade : Known (s.record (.factory name)) := hknown.quiet rfl
  have hnew : s.log.length ∉ entered (s.record (.factory name)).log := by
    intro hmem
    have hmem' : s.log.length ∈ entered s.log := by
      rwa [← entered_quiet (show (Call.factory name).quiet = true from rfl)]
    have := hknown.old _ hmem'
    omega
  unfold acquire
  split
  · exact ⟨hstate, hmade⟩
  · dsimp only
    split
    · rename_i e _
      have hentered : Known ((s.record (.factory name)).record (.enter s.log.length false)) :=
        hmade.quiet rfl
      split
      · have hfailed := (hentered.fail ⟨name, .acquire, e.text⟩).emit env
          (.failed ⟨name, .acquire, e.text⟩)
        unfold Scope.emit at hfailed ⊢
        cases env.emit _ with
        | error e' => exact ⟨hstate, hfailed⟩
        | ok u => exact ⟨hstate, hfailed⟩
      · exact ⟨hstate, hentered⟩
    · have hentered := hmade.enter (m := s.log.length) hname (by simp [Scope.record]) hnew
      have hacquired := hentered.emit env (.acquired name)
      unfold Scope.emit at hacquired ⊢
      dsimp only
      cases env.emit _ with
      | error e' => exact ⟨hstate, hacquired⟩
      | ok u => exact ⟨hstate, hacquired⟩

theorem get_live (h : Live s) (task : Nat) (name : String) (expectedType : Option String) :
    Live (get env manager task name expectedType s).2 := by
  unfold get
  split
  · exact h
  · split
    · exact h
    · split
      · exact h
      · rename_i hnone
        split
        · have hacquire := acquire_live env h hnone
          revert hacquire
          cases acquire env name s with
          | mk outcome s' =>
            intro hacquire
            cases outcome with
            | error e => exact hacquire
            | ok m => exact hacquire
        · exact h

theorem getEager_live (task : Nat) (specs : List ResourceSpec) (h : Live s) :
    Live (getEager env manager task specs s).2 := by
  induction specs generalizing s with
  | nil => exact h
  | cons spec rest ih =>
    unfold getEager
    split
    · have hget := get_live env manager h task spec.name none
      revert hget
      cases get env manager task spec.name none s with
      | mk outcome s' =>
        intro hget
        cases outcome with
        | error e => exact hget
        | ok m => exact ih hget
    · exact ih h

theorem start_live (h : Live s) (task : Nat) : Live (start env manager task s).2 := by
  unfold start
  split
  · exact h
  · apply getEager_live
    refine ⟨fun hclosed => ?_, h.2.managers, h.2.nothing, h.2.old, h.2.nodup⟩
    cases hclosed

theorem run_live {requests : List Request} (hopen : .close ∉ requests) (h : Live s) :
    Live (run env manager requests s) := by
  induction requests generalizing s with
  | nil => exact h
  | cons request rest ih =>
    rw [List.mem_cons, not_or] at hopen
    apply ih hopen.2
    cases request with
    | start task => exact start_live env manager h task
    | get task name expectedType => exact get_live env manager h task name expectedType
    | close => exact absurd rfl hopen.1

theorem fresh_live : Live {} := by
  refine ⟨fun hclosed => ?_, rfl, rfl, fun m hm => ?_, List.nodup_nil⟩
  · cases hclosed
  · cases hm

/-! ## After it has been closed -/

theorem run_closed (hclosed : s.state = .closed) (requests : List Request) :
    run env manager requests s = s := by
  induction requests with
  | nil => rfl
  | cons request rest ih =>
    have hstep : perform env manager request s = s := by
      cases request with
      | start task => simp [perform, start, hclosed]
      | get task name expectedType => simp [perform, get, hclosed]
      | close => simp [perform, close, hclosed]
    show run env manager rest (perform env manager request s) = s
    rw [hstep, ih]

/-! ## Closing -/

def raises : Except Raised Unit → Bool
  | .error _ => true
  | .ok _ => false

/-- What an exit, or the emission behind it, raises ends the loop. -/
def breaksAt (env : ResourceEnv) (place : Nat) : Bool :=
  match env.exit place with
  | .error e => !e.isException || raises (env.emit (place + 1))
  | .ok _ => raises (env.emit (place + 1))

theorem exit_emit (s s' : Scope) (event : ResourceEvent) (m : Nat)
    (hacquired : s'.acquired = s.acquired) (hstate : s'.state = s.state)
    (hlog : s'.log = s.log ++ [.exit m]) :
    ∃ s'' : Scope, s''.acquired = s.acquired ∧ s''.state = s.state ∧ entered s''.log = entered s.log ∧
      exited s''.log = exited s.log ++ [m] ∧ s''.log.length = s.log.length + 2 ∧
      s'.emit env event = (env.emit (s.log.length + 1), s'') := by
  have hlength : s'.log.length = s.log.length + 1 := by rw [hlog, List.length_append]; rfl
  refine ⟨s'.record (.emit event), hacquired, hstate, ?_, ?_, ?_, ?_⟩
  · show entered (s'.log ++ [.emit event]) = _
    rw [entered_quiet rfl, hlog, entered_exit]
  · show exited (s'.log ++ [.emit event]) = _
    rw [exited_quiet rfl, hlog, exited_exit]
  · show (s'.log ++ [Call.emit event]).length = _
    rw [List.length_append, hlength]
    rfl
  · rw [Scope.emit, hlength]

/-- One round of the loop: the context manager is exited, and the loop goes on unless it breaks. -/
theorem release_cons {name : String} {m : Nat} (rest : List String)
    (hname : dictGet s.acquired name = some m) :
    ∃ s' : Scope, s'.acquired = s.acquired ∧ s'.state = s.state ∧ entered s'.log = entered s.log ∧
      exited s'.log = exited s.log ++ [m] ∧
      (breaksAt env s.log.length = true → ∃ e, release env (name :: rest) s = (.error e, s')) ∧
      (breaksAt env s.log.length = false → s'.log.length = s.log.length + 2 ∧
        release env (name :: rest) s = release env rest s') := by
  rw [release, hname]
  dsimp only
  unfold breaksAt
  cases hexit : env.exit s.log.length with
  | error e =>
    dsimp only
    by_cases hcaught : e.isException = true
    · rw [if_pos hcaught]
      obtain ⟨s', hacquired, hstate, hentered, hexited, hlength, hemits⟩ :=
        exit_emit env s ((s.record (.exit m)).fail ⟨name, .release, e.text⟩)
          (.failed ⟨name, .release, e.text⟩) m rfl rfl rfl
      rw [hemits]
      refine ⟨s', hacquired, hstate, hentered, hexited, ?_, ?_⟩
      · intro hbreaks
        cases hemit : env.emit (s.log.length + 1) with
        | error e' => exact ⟨e', rfl⟩
        | ok u => simp [hcaught, hemit, raises] at hbreaks
      · intro hgoes
        refine ⟨hlength, ?_⟩
        cases hemit : env.emit (s.log.length + 1) with
        | error e' => simp [hemit, raises] at hgoes
        | ok u => rfl
    · refine ⟨s.record (.exit m), rfl, rfl, entered_exit _ _, exited_exit _ _, ?_, ?_⟩
      · intro _
        exact ⟨e, by rw [if_neg hcaught]⟩
      · intro hgoes
        simp [hcaught] at hgoes
  | ok u =>
    dsimp only
    obtain ⟨s', hacquired, hstate, hentered, hexited, hlength, hemits⟩ :=
      exit_emit env s (s.record (.exit m)) (.released name) m rfl rfl rfl
    rw [hemits]
    refine ⟨s', hacquired, hstate, hentered, hexited, ?_, ?_⟩
    · intro hbreaks
      cases hemit : env.emit (s.log.length + 1) with
      | error e' => exact ⟨e', rfl⟩
      | ok u => simp [hemit, raises] at hbreaks
    · intro hgoes
      refine ⟨hlength, ?_⟩
      cases hemit : env.emit (s.log.length + 1) with
      | error e' => simp [hemit, raises] at hgoes
      | ok u => rfl

/-- The loop exits every context manager, unless a call breaks it before the last one. -/
theorem release_exited {names : List String} {ms : List Nat}
    (hnames : names.map (dictGet s.acquired) = ms.map some) :
    entered (release env names s).2.log = entered s.log ∧
      (release env names s).2.state = s.state ∧
      (exited (release env names s).2.log = exited s.log ++ ms ↔
        ∀ i, i + 1 < ms.length → breaksAt env (s.log.length + 2 * i) = false) := by
  induction names generalizing s ms with
  | nil =>
    obtain rfl : ms = [] := by simpa using hnames.symm
    exact ⟨rfl, rfl, by simp [release]⟩
  | cons name rest ih =>
    cases ms with
    | nil => cases hnames
    | cons m ms =>
      simp only [List.map_cons, List.cons.injEq] at hnames
      obtain ⟨s', hacquired, hstate, hentered, hexited, hbreak, hgo⟩ :=
        release_cons env rest hnames.1
      cases hat : breaksAt env s.log.length with
      | true =>
        obtain ⟨e, he⟩ := hbreak hat
        rw [he]
        refine ⟨hentered, hstate, ?_⟩
        show exited s'.log = _ ↔ _
        rw [hexited]
        constructor
        · intro hall i hi
          have hlast : ms = [] := by simpa using hall
          subst hlast
          simp only [List.length_cons, List.length_nil] at hi
          omega
        · intro hall
          by_contra hmore
          have hpos : 0 < ms.length := by
            rw [List.length_pos_iff]
            rintro rfl
            exact hmore rfl
          have := hall 0 (by rw [List.length_cons]; omega)
          rw [Nat.mul_zero, Nat.add_zero, hat] at this
          cases this
      | false =>
        obtain ⟨hlength, hstep⟩ := hgo hat
        have hrest : rest.map (dictGet s'.acquired) = ms.map some := by
          rw [hacquired]
          exact hnames.2
        obtain ⟨ihEntered, ihState, ihExited⟩ := ih hrest
        rw [hstep]
        refine ⟨ihEntered.trans hentered, ihState.trans hstate, ?_⟩
        have hsplit : exited s.log ++ m :: ms = exited s'.log ++ ms := by
          rw [hexited, List.append_assoc]
          rfl
        rw [hsplit, ihExited, hlength]
        constructor
        · intro hall i hi
          cases i with
          | zero => exact hat
          | succ i =>
            have := hall i (by rw [List.length_cons] at hi; omega)
            rwa [show s.log.length + 2 * (i + 1) = s.log.length + 2 + 2 * i by omega]
        · intro hall i hi
          have := hall (i + 1) (by rw [List.length_cons]; omega)
          rwa [show s.log.length + 2 * (i + 1) = s.log.length + 2 + 2 * i by omega] at this

theorem close_log (hopen : s.state ≠ .closed) :
    (close env s).2.log = (release env s.order.reverse { s with state := .closed }).2.log ∧
      (close env s).2.state = (release env s.order.reverse { s with state := .closed }).2.state := by
  unfold close
  rw [if_neg hopen]
  cases release env s.order.reverse { s with state := .closed } with
  | mk outcome t =>
    cases outcome with
    | error e => exact ⟨rfl, rfl⟩
    | ok u => exact ⟨rfl, rfl⟩

/-- Once the manager has been closed, however it was used before and is used after, every resource
has been released once and in reverse order, unless the exit of another than the last one, or the
event behind it, raised an exception out of the loop. -/
theorem released_once_iff {before : List Request} (hbefore : .close ∉ before)
    (after : List Request) :
    ReleasedOnce (run env manager (before ++ .close :: after) {}) ↔
      ∀ i, i + 1 < (run env manager before {}).order.length →
        breaksAt env ((run env manager before {}).log.length + 2 * i) = false := by
  have hlive := run_live env manager hbefore fresh_live
  have hsplit : run env manager (before ++ .close :: after) {} =
      run env manager after (close env (run env manager before {})).2 := by
    unfold run
    rw [List.foldl_append]
    rfl
  revert hlive hsplit
  generalize run env manager before {} = opened
  intro hlive hsplit
  obtain ⟨hopen, hknown⟩ := hlive
  obtain ⟨hlog, hstate⟩ := close_log env hopen
  have hnames : opened.order.reverse.map (dictGet opened.acquired) =
      (entered opened.log).reverse.map some := by
    rw [List.map_reverse, List.map_reverse, hknown.managers]
  obtain ⟨hentered, hclosed, hexited⟩ :=
    release_exited env (s := { opened with state := .closed }) hnames
  have hlength : (entered opened.log).reverse.length = opened.order.length := by
    have := congrArg List.length hknown.managers
    rw [List.length_map, List.length_map] at this
    rw [List.length_reverse, this]
  rw [hsplit, run_closed env manager (by rw [hstate, hclosed]) after, ReleasedOnce, hlog, hentered]
  dsimp only at hexited
  rw [hlength, hknown.nothing, List.nil_append] at hexited
  rw [hexited]
  exact and_iff_right hknown.nodup

end Manager

def twoResources : ResourceManager where
  specs := [{ name := "a", eager := true, valid := by decide },
    { name := "b", eager := true, valid := by decide }]
  unique := by decide

def failingStore (place : Nat) : ResourceEnv where
  emit n := if n = place then .error (.exception "disk full") else .ok ()

-- The event of the first release is not stored, and the second resource is never released.
theorem second_resource_kept :
    ¬ ReleasedOnce (run (failingStore 7) twoResources [.start 0, .close] {}) := by
  unfold ReleasedOnce
  decide

theorem both_resources_released :
    ReleasedOnce (run (failingStore 9) twoResources ([.start 0] ++ .close :: [.close]) {}) := by
  have hview : (run (failingStore 9) twoResources [.start 0] {}).order.length = 2 ∧
      (run (failingStore 9) twoResources [.start 0] {}).log.length = 6 := by
    decide
  apply (released_once_iff (failingStore 9) twoResources
    (show Request.close ∉ [Request.start 0] by decide) [.close]).mpr
  intro i hi
  rw [hview.1] at hi
  obtain rfl : i = 0 := by omega
  rw [hview.2]
  rfl

end Resources
end BaseAgent
