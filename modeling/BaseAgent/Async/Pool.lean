import BaseAgent.Async.Program

/-!
# Interleavings of tasks

A pool runs a family of tasks over one shared state.  A schedule names, step by
step, the task that runs next; that task performs the operation it awaits, as one
atomic step, and keeps the reply.  Every interleaving of the tasks is the run of
one schedule, and a task that a schedule stops naming has crashed or is waiting.

`Outline` is the rule for proving a property of every run.  Each task carries a
ghost value, which only its own steps change, and an invariant ties the shared
state, the log of performed operations and the ghost values together.  `Safe`
says that a task keeps the invariant from each of its points on, whatever the
other tasks did in between.
-/

namespace BaseAgent
namespace Async

variable {ι Op : Type} {Ret : Op → Type} {ε α β σ : Type}

structure Entry (ι Op : Type) (Ret : Op → Type) where
  task : ι
  op : Op
  reply : Ret op

/-- The tasks of a pool with their shared state and the log of what they did. -/
structure Pool (ι Op : Type) (Ret : Op → Type) (ε α σ : Type) where
  shared : σ
  tasks : ι → Prog Op Ret ε α
  log : List (Entry ι Op Ret) := []

namespace Pool

variable [DecidableEq ι] (exec : (o : Op) → σ → Ret o × σ)

/-- Let task `i` perform the operation it awaits.  A task that has ended does
nothing. -/
def step (c : Pool ι Op Ret ε α σ) (i : ι) : Pool ι Op Ret ε α σ :=
  match c.tasks i with
  | .call o k =>
    { shared := (exec o c.shared).2
      tasks := Function.update c.tasks i (k (exec o c.shared).1)
      log := c.log ++ [⟨i, o, (exec o c.shared).1⟩] }
  | _ => c

/-- The pool after the steps a schedule names, in order. -/
def run (c : Pool ι Op Ret ε α σ) (schedule : List ι) : Pool ι Op Ret ε α σ :=
  schedule.foldl (step exec) c

/-- Each step of the schedule is taken in a pool that permits it. -/
def Admits (permit : Pool ι Op Ret ε α σ → ι → Prop) (c : Pool ι Op Ret ε α σ) :
    List ι → Prop
  | [] => True
  | i :: rest => permit c i ∧ Admits permit (step exec c i) rest

@[simp] theorem run_nil (c : Pool ι Op Ret ε α σ) : run exec c [] = c := rfl

@[simp] theorem run_cons (c : Pool ι Op Ret ε α σ) (i : ι) (rest : List ι) :
    run exec c (i :: rest) = run exec (step exec c i) rest := rfl

theorem run_append (c : Pool ι Op Ret ε α σ) (a b : List ι) :
    run exec c (a ++ b) = run exec (run exec c a) b :=
  List.foldl_append

def entry (c : Pool ι Op Ret ε α σ) (i : ι) : List (Entry ι Op Ret) :=
  match c.tasks i with
  | .call o _ => [⟨i, o, (exec o c.shared).1⟩]
  | _ => []

def trace (c : Pool ι Op Ret ε α σ) : List ι → List (Entry ι Op Ret)
  | [] => []
  | i :: rest => entry exec c i ++ trace (step exec c i) rest

theorem run_log (c : Pool ι Op Ret ε α σ) (schedule : List ι) :
    (run exec c schedule).log = c.log ++ trace exec c schedule := by
  induction schedule generalizing c with
  | nil => simp [trace]
  | cons i rest ih =>
    rw [run_cons, ih, trace, ← List.append_assoc]
    congr 1
    unfold step entry
    cases c.tasks i <;> simp

theorem reply_of_mem_trace {c : Pool ι Op Ret ε α σ} {schedule : List ι} {e : Entry ι Op Ret}
    (he : e ∈ trace exec c schedule) : ∃ s, e.reply = (exec e.op s).1 := by
  induction schedule generalizing c with
  | nil => cases he
  | cons i rest ih =>
    cases List.mem_append.mp he with
    | inl hnow =>
      unfold entry at hnow
      split at hnow
      · rw [List.mem_singleton.mp hnow]
        exact ⟨c.shared, rfl⟩
      · cases hnow
    | inr hlater => exact ih hlater

theorem step_call {c : Pool ι Op Ret ε α σ} {i : ι} {o : Op}
    {k : Ret o → Prog Op Ret ε α} (h : c.tasks i = .call o k) :
    step exec c i =
      { shared := (exec o c.shared).2
        tasks := Function.update c.tasks i (k (exec o c.shared).1)
        log := c.log ++ [⟨i, o, (exec o c.shared).1⟩] } := by
  rw [step, h]

theorem step_done {c : Pool ι Op Ret ε α σ} {i : ι} (h : (c.tasks i).done = true) :
    step exec c i = c := by
  unfold step
  cases hc : c.tasks i with
  | ret a => rfl
  | raise e => rfl
  | call o k => rw [hc] at h; exact absurd h (by simp [Prog.done])

theorem run_task {P : Prog Op Ret ε α → Prop}
    (hP : ∀ o k, P (.call o k) → ∀ r, P (k r)) {c : Pool ι Op Ret ε α σ} {i : ι}
    (h : P (c.tasks i)) (schedule : List ι) : P ((run exec c schedule).tasks i) := by
  induction schedule generalizing c with
  | nil => exact h
  | cons j rest ih =>
    refine ih ?_
    unfold step
    split
    · rename_i o k hj
      by_cases hij : i = j
      · subst hij
        rw [hj] at h
        simpa using hP o k h _
      · simpa [Function.update_of_ne hij] using h
    · exact h

theorem run_invariant {I : σ → List (Entry ι Op Ret) → Prop}
    (hstep : ∀ s log i o, I s log → I (exec o s).2 (log ++ [⟨i, o, (exec o s).1⟩]))
    {c : Pool ι Op Ret ε α σ} (h : I c.shared c.log) (schedule : List ι) :
    I (run exec c schedule).shared (run exec c schedule).log := by
  induction schedule generalizing c with
  | nil => exact h
  | cons i rest ih =>
    apply ih
    unfold step
    split
    · exact hstep _ _ _ _ h
    · exact h

/-- A task that is named often enough ends. -/
theorem exists_done (c : Pool ι Op Ret ε α σ) (i : ι) :
    ∃ n, ((run exec c (List.replicate n i)).tasks i).done = true := by
  generalize hp : c.tasks i = p
  induction p generalizing c with
  | ret a => exact ⟨0, by rw [List.replicate_zero, run_nil, hp]; rfl⟩
  | raise e => exact ⟨0, by rw [List.replicate_zero, run_nil, hp]; rfl⟩
  | call o k ih =>
    have hstep : (step exec c i).tasks i = k (exec o c.shared).1 := by
      rw [step_call exec hp]
      simp
    obtain ⟨n, hn⟩ := ih _ (step exec c i) hstep
    exact ⟨n + 1, by rw [List.replicate_succ, run_cons]; exact hn⟩

theorem Admits.of_forall {permit : Pool ι Op Ret ε α σ → ι → Prop}
    (h : ∀ c i, permit c i) (c : Pool ι Op Ret ε α σ) (schedule : List ι) :
    Admits exec permit c schedule := by
  induction schedule generalizing c with
  | nil => trivial
  | cons i rest ih => exact ⟨h c i, ih _⟩

/-- A condition on every entry of the log is met by each step as it is taken. -/
theorem Admits.of_log {cond : Entry ι Op Ret → Prop} {c : Pool ι Op Ret ε α σ}
    {schedule : List ι} (h : ∀ e ∈ (run exec c schedule).log, cond e) :
    Admits exec (fun c i => ∀ e ∈ entry exec c i, cond e) c schedule := by
  rw [run_log] at h
  have htrace : ∀ e ∈ trace exec c schedule, cond e :=
    fun e he => h e (List.mem_append_right _ he)
  clear h
  induction schedule generalizing c with
  | nil => trivial
  | cons i rest ih =>
    constructor
    · intro e he
      exact htrace e (List.mem_append_left _ he)
    · exact ih fun e he => htrace e (List.mem_append_right _ he)

end Pool

def ofTask [DecidableEq ι] (i : ι) (log : List (Entry ι Op Ret)) : List (Entry ι Op Ret) :=
  log.filter fun e => e.task = i

theorem ofTask_append [DecidableEq ι] (i : ι) (a b : List (Entry ι Op Ret)) :
    ofTask i (a ++ b) = ofTask i a ++ ofTask i b :=
  List.filter_append a b

/-- The program performs the operations of the entries, gets their replies and is then the
other program. -/
inductive Follows : Prog Op Ret ε α → List (Entry ι Op Ret) → Prog Op Ret ε α → Prop
  | nil (p : Prog Op Ret ε α) : Follows p [] p
  | cons {i : ι} {o : Op} {r : Ret o} {k : Ret o → Prog Op Ret ε α}
      {entries : List (Entry ι Op Ret)} {q : Prog Op Ret ε α} (h : Follows (k r) entries q) :
      Follows (.call o k) (⟨i, o, r⟩ :: entries) q

/-- What a program keeps from one of its points to the next, it keeps. -/
theorem Follows.keeps {P : Prog Op Ret ε α → Prop} (hP : ∀ o k, P (.call o k) → ∀ r, P (k r))
    {p q : Prog Op Ret ε α} {entries : List (Entry ι Op Ret)} (h : Follows p entries q)
    (hp : P p) : P q := by
  induction h with
  | nil p => exact hp
  | cons h ih => exact ih (hP _ _ hp _)

namespace Prog

/-- What the program does when it runs alone. -/
def history (exec : (o : Op) → σ → Ret o × σ) : Prog Op Ret ε α → σ → List (Entry Unit Op Ret)
  | .ret _, _ => []
  | .raise _, _ => []
  | .call o k, s => ⟨(), o, (exec o s).1⟩ :: (k (exec o s).1).history exec (exec o s).2

section History

variable {exec : (o : Op) → σ → Ret o × σ}

theorem history_call {o : Op} {k : Ret o → Prog Op Ret ε α} {s s' : σ} {r : Ret o}
    (h : exec o s = (r, s')) :
    (Prog.call o k).history exec s = ⟨(), o, r⟩ :: (k r).history exec s' := by
  rw [history, h]

theorem history_bind_ok {p : Prog Op Ret ε α} {f : α → Prog Op Ret ε β} {s s' : σ} {a : α}
    (h : p.eval exec s = (.ok a, s')) :
    (p.bind f).history exec s = p.history exec s ++ (f a).history exec s' := by
  induction p generalizing s with
  | ret b =>
    cases h
    rfl
  | raise e => cases h
  | call o k ih => exact congrArg (_ :: ·) (ih _ h)

theorem history_bind_prefix (p : Prog Op Ret ε α) (f : α → Prog Op Ret ε β) (s : σ) :
    p.history exec s <+: (p.bind f).history exec s := by
  induction p generalizing s with
  | ret a => exact List.nil_prefix
  | raise e => exact List.nil_prefix
  | call o k ih => exact List.cons_prefix_cons.mpr ⟨rfl, ih _ _⟩

theorem history_attempt {ε' : Type} (p : Prog Op Ret ε α) (s : σ) :
    (p.attempt : Prog Op Ret ε' (Except ε α)).history exec s = p.history exec s := by
  induction p generalizing s with
  | ret a => rfl
  | raise e => rfl
  | call o k ih => exact congrArg (_ :: ·) (ih _ _)

theorem Only.history {A : Op → Prop} {p : Prog Op Ret ε α} (hp : p.Only A) (s : σ) :
    ∀ e ∈ p.history exec s, A e.op := by
  induction p generalizing s with
  | ret a => exact fun e he => absurd he List.not_mem_nil
  | raise e => exact fun e he => absurd he List.not_mem_nil
  | call o k ih =>
    intro e he
    cases List.mem_cons.mp he with
    | inl hfirst =>
      rw [hfirst]
      exact hp.1
    | inr hrest => exact ih _ (hp.2 _) _ e hrest

theorem along_of_history {A : σ → Op → Prop} {p : Prog Op Ret ε α} {s : σ}
    (h : ∀ s', ∀ e ∈ p.history exec s, A s' e.op) : p.Along exec A s := by
  induction p generalizing s with
  | ret a => trivial
  | raise e => trivial
  | call o k ih =>
    refine ⟨h s _ List.mem_cons_self, ih _ fun s' e he => ?_⟩
    exact h s' e (List.mem_cons_of_mem _ he)

theorem run_history (c : Pool Unit Op Ret ε α σ) :
    ∃ schedule, (c.run exec schedule).log = c.log ++ (c.tasks ()).history exec c.shared := by
  generalize hp : c.tasks () = p
  induction p generalizing c with
  | ret a => exact ⟨[], by simp [history]⟩
  | raise e => exact ⟨[], by simp [history]⟩
  | call o k ih =>
    obtain ⟨schedule, hlog⟩ := ih (exec o c.shared).1 (c.step exec ())
      (by rw [Pool.step_call exec hp]; simp)
    refine ⟨() :: schedule, ?_⟩
    rw [Pool.run_cons, hlog, Pool.step_call exec hp, history, List.append_assoc]
    rfl

end History

end Prog

theorem Pool.run_follows [DecidableEq ι] (exec : (o : Op) → σ → Ret o × σ)
    (c : Pool ι Op Ret ε α σ) (i : ι) (schedule : List ι) :
    Follows (c.tasks i) (ofTask i (trace exec c schedule)) ((run exec c schedule).tasks i) := by
  induction schedule generalizing c with
  | nil => exact Follows.nil _
  | cons j rest ih =>
    rw [run_cons, trace, ofTask, List.filter_append]
    have hrest := ih (step exec c j)
    cases hj : c.tasks j with
    | call o k =>
      rw [step_call exec hj] at hrest ⊢
      simp only [entry, hj]
      by_cases hij : j = i
      · subst hij
        simp only [Function.update_self] at hrest
        rw [hj, List.filter_cons_of_pos (by simp), List.filter_nil]
        exact Follows.cons hrest
      · rw [List.filter_cons_of_neg (by simpa using hij), List.filter_nil]
        simpa [ofTask, Function.update_of_ne (Ne.symm hij)] using hrest
    | ret a =>
      rw [step_done exec (by rw [hj]; rfl)] at hrest ⊢
      simpa [ofTask, entry, hj] using hrest
    | raise e =>
      rw [step_done exec (by rw [hj]; rfl)] at hrest ⊢
      simpa [ofTask, entry, hj] using hrest

/-- A proof outline: the invariant, what a permitted step may rely on beside it,
and what every step guarantees about the state before and after. -/
structure Outline (ι Op : Type) (Ret : Op → Type) (σ G : Type) where
  Inv : σ → List (Entry ι Op Ret) → (ι → G) → Prop
  Rely : σ → List (Entry ι Op Ret) → (ι → G) → ι → Op → Prop := fun _ _ _ _ _ => True
  Guar : σ → σ → Prop := fun _ _ => True

namespace Outline

variable {G : Type} [DecidableEq ι]
variable (exec : (o : Op) → σ → Ret o × σ) (O : Outline ι Op Ret σ G)

/-- Task `i` keeps the outline from here on, starting with the ghost value `g`,
and ends with a value and a ghost value in `Q` or an error and one in `E`. -/
def Safe (i : ι) (Q : α → G → Prop) (E : ε → G → Prop) : Prog Op Ret ε α → G → Prop
  | .ret a, g => Q a g
  | .raise e, g => E e g
  | .call o k, g => ∀ s log ghost, ghost i = g → O.Inv s log ghost →
      O.Rely s log ghost i o →
      ∃ g', O.Guar s (exec o s).2 ∧
        O.Inv (exec o s).2 (log ++ [⟨i, o, (exec o s).1⟩]) (Function.update ghost i g') ∧
        Safe i Q E (k (exec o s).1) g'

/-- Task `i` may perform `o` with the ghost value `g`; the reply and the ghost value it
takes satisfy `P`. -/
def Step (i : ι) (o : Op) (g : G) (P : Ret o → G → Prop) : Prop :=
  ∀ s log ghost, ghost i = g → O.Inv s log ghost → O.Rely s log ghost i o →
    ∃ g', O.Guar s (exec o s).2 ∧
      O.Inv (exec o s).2 (log ++ [⟨i, o, (exec o s).1⟩]) (Function.update ghost i g') ∧
      P (exec o s).1 g'

variable {exec O}

theorem Step.mono {i : ι} {o : Op} {g : G} {P P' : Ret o → G → Prop}
    (h : O.Step exec i o g P) (hP : ∀ r g', P r g' → P' r g') : O.Step exec i o g P' := by
  intro s log ghost hg hI hR
  obtain ⟨g', hG, hI', hr⟩ := h s log ghost hg hI hR
  exact ⟨g', hG, hI', hP _ _ hr⟩

theorem Step.with_reply {i : ι} {o : Op} {g : G} {P : Ret o → G → Prop} {R : Ret o → Prop}
    (h : O.Step exec i o g P) (hR : ∀ s, R (exec o s).1) :
    O.Step exec i o g fun r g' => P r g' ∧ R r := by
  intro s log ghost hg hI hr
  obtain ⟨g', hG, hI', hP⟩ := h s log ghost hg hI hr
  exact ⟨g', hG, hI', hP, hR s⟩

theorem Step.safe {i : ι} {Q : α → G → Prop} {E : ε → G → Prop} {o : Op}
    {k : Ret o → Prog Op Ret ε α} {g : G} {P : Ret o → G → Prop} (h : O.Step exec i o g P)
    (hk : ∀ r g', P r g' → O.Safe exec i Q E (k r) g') : O.Safe exec i Q E (.call o k) g :=
  h.mono hk

theorem Safe.mono {i : ι} {Q Q' : α → G → Prop} {E E' : ε → G → Prop}
    (hQ : ∀ a g, Q a g → Q' a g) (hE : ∀ e g, E e g → E' e g)
    {p : Prog Op Ret ε α} {g : G} (h : O.Safe exec i Q E p g) : O.Safe exec i Q' E' p g := by
  induction p generalizing g with
  | ret a => exact hQ a g h
  | raise e => exact hE e g h
  | call o k ih =>
    intro s log ghost hg hI hR
    obtain ⟨g', hG, hI', hk⟩ := h s log ghost hg hI hR
    exact ⟨g', hG, hI', ih _ hk⟩

theorem Safe.bind {i : ι} {Q : α → G → Prop} {R : β → G → Prop} {E : ε → G → Prop}
    {p : Prog Op Ret ε α} {f : α → Prog Op Ret ε β} {g : G}
    (hp : O.Safe exec i Q E p g) (hf : ∀ a g, Q a g → O.Safe exec i R E (f a) g) :
    O.Safe exec i R E (p.bind f) g := by
  induction p generalizing g with
  | ret a => exact hf a g hp
  | raise e => exact hp
  | call o k ih =>
    intro s log ghost hg hI hR
    obtain ⟨g', hG, hI', hk⟩ := hp s log ghost hg hI hR
    exact ⟨g', hG, hI', ih _ hk⟩

theorem Safe.attempt {ε' : Type} {i : ι} {Q : α → G → Prop} {E : ε → G → Prop}
    {Q' : Except ε α → G → Prop} {E' : ε' → G → Prop}
    {p : Prog Op Ret ε α} {g : G} (hp : O.Safe exec i Q E p g)
    (hQ : ∀ a g, Q a g → Q' (.ok a) g) (hE : ∀ e g, E e g → Q' (.error e) g) :
    O.Safe exec i Q' E' (p.attempt : Prog Op Ret ε' (Except ε α)) g := by
  induction p generalizing g with
  | ret a => exact hQ a g hp
  | raise e => exact hE e g hp
  | call o k ih =>
    intro s log ghost hg hI hR
    obtain ⟨g', hG, hI', hk⟩ := hp s log ghost hg hI hR
    exact ⟨g', hG, hI', ih _ hk⟩

theorem Safe.of_only {A : Op → Prop} {F : G → Prop} {i : ι} {p : Prog Op Ret ε α} {g : G}
    (hp : p.Only A) (hstep : ∀ o g, A o → F g → O.Step exec i o g fun _ g' => F g')
    (hg : F g) : O.Safe exec i (fun _ g' => F g') (fun _ g' => F g') p g := by
  induction p generalizing g with
  | ret a => exact hg
  | raise e => exact hg
  | call o k ih => exact (hstep o g hp.1 hg).safe fun r g' hg' => ih r (hp.2 r) hg'

/-- What is known of the exceptions of a program may be added to its outcome. -/
theorem Safe.throws {R : (o : Op) → Ret o → Prop} {P : ε → Prop} {i : ι} {Q : α → G → Prop}
    {E : ε → G → Prop} {p : Prog Op Ret ε α} {g : G} (h : O.Safe exec i Q E p g)
    (hp : p.Throws R P) (hR : ∀ o s, R o (exec o s).1) :
    O.Safe exec i Q (fun e g' => P e ∧ E e g') p g := by
  induction p generalizing g with
  | ret a => exact h
  | raise e => exact ⟨hp, h⟩
  | call o k ih =>
    intro s log ghost hg hI hr
    obtain ⟨g', hG, hI', hk⟩ := h s log ghost hg hI hr
    exact ⟨g', hG, hI', ih _ hk (hp _ (hR o s))⟩

/-- The state of a proof along a run: the invariant with some ghost values, each
task safe from where it is. -/
def Holds (exec : (o : Op) → σ → Ret o × σ) (O : Outline ι Op Ret σ G)
    (Q : ι → α → G → Prop) (E : ι → ε → G → Prop) (c : Pool ι Op Ret ε α σ)
    (ghost : ι → G) : Prop :=
  O.Inv c.shared c.log ghost ∧ ∀ i, O.Safe exec i (Q i) (E i) (c.tasks i) (ghost i)

variable {Q : ι → α → G → Prop} {E : ι → ε → G → Prop}

theorem Holds.step {c : Pool ι Op Ret ε α σ} {ghost : ι → G} {i : ι}
    (h : Holds exec O Q E c ghost) (hguar : ∀ s, O.Guar s s)
    (hrely : ∀ o k, c.tasks i = .call o k → O.Rely c.shared c.log ghost i o) :
    ∃ ghost', O.Guar c.shared (c.step exec i).shared ∧
      Holds exec O Q E (c.step exec i) ghost' := by
  cases hc : c.tasks i with
  | ret a =>
    rw [Pool.step_done exec (by rw [hc]; rfl)]
    exact ⟨ghost, hguar _, h⟩
  | raise e =>
    rw [Pool.step_done exec (by rw [hc]; rfl)]
    exact ⟨ghost, hguar _, h⟩
  | call o k =>
    have hsafe := h.2 i
    rw [hc] at hsafe
    obtain ⟨g', hG, hI, hk⟩ := hsafe _ _ ghost rfl h.1 (hrely o k hc)
    rw [Pool.step_call exec hc]
    refine ⟨Function.update ghost i g', hG, hI, fun j => ?_⟩
    by_cases hj : j = i
    · subst hj
      simpa using hk
    · simpa [Function.update_of_ne hj] using h.2 j

theorem Holds.run {permit : Pool ι Op Ret ε α σ → ι → Prop}
    (hrefl : ∀ s, O.Guar s s) (htrans : ∀ s t u, O.Guar s t → O.Guar t u → O.Guar s u)
    (hrely : ∀ (c : Pool ι Op Ret ε α σ) ghost i, Holds exec O Q E c ghost → permit c i →
      ∀ o k, c.tasks i = .call o k → O.Rely c.shared c.log ghost i o)
    {c : Pool ι Op Ret ε α σ} {ghost : ι → G} (h : Holds exec O Q E c ghost)
    {schedule : List ι} (hadm : c.Admits exec permit schedule) :
    ∃ ghost', O.Guar c.shared (c.run exec schedule).shared ∧
      Holds exec O Q E (c.run exec schedule) ghost' := by
  induction schedule generalizing c ghost with
  | nil => exact ⟨ghost, hrefl _, h⟩
  | cons i rest ih =>
    obtain ⟨ghost₁, hG₁, h₁⟩ := h.step hrefl (hrely c ghost i h hadm.1)
    obtain ⟨ghost₂, hG₂, h₂⟩ := ih h₁ hadm.2
    exact ⟨ghost₂, htrans _ _ _ hG₁ hG₂, h₂⟩

/-- The rule for an outline that asks nothing of the schedule. -/
theorem Holds.run_all {c : Pool ι Op Ret ε α σ} {ghost : ι → G}
    (hrely : ∀ s log ghost i o, O.Rely s log ghost i o) (hguar : ∀ s t, O.Guar s t)
    (h : Holds exec O Q E c ghost) (schedule : List ι) :
    ∃ ghost', Holds exec O Q E (c.run exec schedule) ghost' := by
  have hadm : c.Admits exec (fun _ _ => True) schedule :=
    Pool.Admits.of_forall exec (fun _ _ => trivial) c schedule
  obtain ⟨ghost', -, h'⟩ := h.run (fun s => hguar s s)
    (fun s _ u _ _ => hguar s u) (fun _ _ _ _ _ _ _ _ => hrely ..) hadm
  exact ⟨ghost', h'⟩

/-- The rule for an outline that relies on a condition on the performed operations: it holds
along every run whose log meets the condition. -/
theorem Holds.run_log {cond : Entry ι Op Ret → Prop} {c : Pool ι Op Ret ε α σ} {ghost : ι → G}
    (hrely : ∀ s log ghost i o, cond ⟨i, o, (exec o s).1⟩ → O.Rely s log ghost i o)
    (hguar : ∀ s t, O.Guar s t) (h : Holds exec O Q E c ghost) {schedule : List ι}
    (hlog : ∀ e ∈ (c.run exec schedule).log, cond e) :
    ∃ ghost', Holds exec O Q E (c.run exec schedule) ghost' := by
  have hstep : ∀ (c : Pool ι Op Ret ε α σ) ghost i, Holds exec O Q E c ghost →
      (∀ e ∈ c.entry exec i, cond e) →
      ∀ o k, c.tasks i = .call o k → O.Rely c.shared c.log ghost i o := by
    intro c' ghost' i _ hpermit o k hk
    refine hrely _ _ _ _ _ (hpermit _ ?_)
    simp [Pool.entry, hk]
  obtain ⟨ghost', -, h'⟩ := h.run (fun s => hguar s s) (fun s _ u _ _ => hguar s u) hstep
    (Pool.Admits.of_log exec hlog)
  exact ⟨ghost', h'⟩

end Outline

end Async
end BaseAgent
