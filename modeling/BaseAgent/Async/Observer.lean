import BaseAgent.Async.Pool

/-!
# Following a program from outside

An `Observer` keeps a value of its own while a program runs: it says which operations it
admits in a state, which replies it expects, and how an operation with its reply moves the
state.  `Meets` says that a program performs only admitted operations, whatever the expected
replies are, and ends with a value or an error that suits the observer's last state.

An observer whose state is the shared world itself, with the replies the world gives, is a
logic for programs that run alone.  One that expects every reply follows all runs at once.
-/

namespace BaseAgent
namespace Async

structure Observer (Op : Type) (Ret : Op → Type) (S : Type) where
  admits : S → Op → Prop := fun _ _ => True
  expects : S → (o : Op) → Ret o → Prop := fun _ _ _ => True
  next : S → (o : Op) → Ret o → S

def Observer.ofExec {Op S : Type} {Ret : Op → Type} (exec : (o : Op) → S → Ret o × S) :
    Observer Op Ret S where
  expects s o r := r = (exec o s).1
  next s o _ := (exec o s).2

/-- The observer of a program that runs alone and is recorded.  What it has done and left is `I`
before every operation. -/
def Observer.recording {Op σ : Type} {Ret : Op → Type} (exec : (o : Op) → σ → Ret o × σ)
    (I : σ × List (Entry Unit Op Ret) → Prop) :
    Observer Op Ret (σ × List (Entry Unit Op Ret)) where
  admits s _ := I s
  expects s o r := r = (exec o s.1).1
  next s o _ := ((exec o s.1).2, s.2 ++ [⟨(), o, (exec o s.1).1⟩])

/-- The observer of a program that runs alone and is recorded, and whose operations are `A` in the
world they find. -/
def Observer.guarded {Op σ : Type} {Ret : Op → Type} (exec : (o : Op) → σ → Ret o × σ)
    (A : σ → Op → Prop) : Observer Op Ret (σ × List (Entry Unit Op Ret)) where
  admits s o := A s.1 o
  expects s o r := r = (exec o s.1).1
  next s o _ := ((exec o s.1).2, s.2 ++ [⟨(), o, (exec o s.1).1⟩])

/-- The observer of a program that runs alone and is recorded, until an operation is `B`. -/
def Observer.barring {Op σ : Type} {Ret : Op → Type} (exec : (o : Op) → σ → Ret o × σ)
    (B : Op → Prop) : Observer Op Ret (σ × List (Entry Unit Op Ret)) where
  expects s o r := ¬ B o ∧ r = (exec o s.1).1
  next s o _ := ((exec o s.1).2, s.2 ++ [⟨(), o, (exec o s.1).1⟩])

/-- The observer of a program that runs alone, whose operations are to be `B` as long as they are
`A`. -/
def Observer.assuming {Op S : Type} {Ret : Op → Type} (exec : (o : Op) → S → Ret o × S)
    (A B : S → Op → Prop) : Observer Op Ret S where
  admits s o := B s o
  expects s o r := A s o ∧ r = (exec o s).1
  next s o _ := (exec o s).2

namespace Observer

variable {ι Op : Type} {Ret : Op → Type} {S : Type} (L : Observer Op Ret S)

def after (s : S) (log : List (Entry ι Op Ret)) : S :=
  log.foldl (fun s e => L.next s e.op e.reply) s

/-- Each reply of the log is expected where it comes. -/
def Expected (s : S) : List (Entry ι Op Ret) → Prop
  | [] => True
  | e :: rest => L.expects s e.op e.reply ∧ Expected (L.next s e.op e.reply) rest

/-- Each operation of the log is admitted where it stands. -/
def Admitted (s : S) : List (Entry ι Op Ret) → Prop
  | [] => True
  | e :: rest => L.admits s e.op ∧ Admitted (L.next s e.op e.reply) rest

variable {L}

@[simp] theorem after_snoc (s : S) (log : List (Entry ι Op Ret)) (e : Entry ι Op Ret) :
    L.after s (log ++ [e]) = L.next (L.after s log) e.op e.reply := by
  simp [after]

theorem expected_snoc {s : S} {log : List (Entry ι Op Ret)} {e : Entry ι Op Ret} :
    L.Expected s (log ++ [e]) ↔ L.Expected s log ∧ L.expects (L.after s log) e.op e.reply := by
  induction log generalizing s with
  | nil => simp [Expected, after]
  | cons head rest ih => simp only [List.cons_append, Expected, ih, and_assoc]; rfl

theorem admitted_snoc {s : S} {log : List (Entry ι Op Ret)} {e : Entry ι Op Ret} :
    L.Admitted s (log ++ [e]) ↔ L.Admitted s log ∧ L.admits (L.after s log) e.op := by
  induction log generalizing s with
  | nil => simp [Admitted, after]
  | cons head rest ih => simp only [List.cons_append, Admitted, ih, and_assoc]; rfl

theorem Admitted.split {s : S} {before after : List (Entry ι Op Ret)} {e : Entry ι Op Ret}
    (h : L.Admitted s (before ++ e :: after)) : L.admits (L.after s before) e.op := by
  induction before generalizing s with
  | nil => exact h.1
  | cons head rest ih => exact ih h.2

theorem Admitted.at {s : S} {log : List (Entry ι Op Ret)} (h : L.Admitted s log) {i : Nat}
    {e : Entry ι Op Ret} (he : log[i]? = some e) : L.admits (L.after s (log.take i)) e.op := by
  induction log generalizing s i with
  | nil => simp at he
  | cons head rest ih =>
    cases i with
    | zero =>
      cases he
      exact h.1
    | succ i => exact ih h.2 (by simpa using he)

/-- Replies that are expected in every state are expected along the log. -/
theorem expected_of_forall {log : List (Entry ι Op Ret)}
    (h : ∀ s, ∀ e ∈ log, L.expects s e.op e.reply) (s : S) : L.Expected s log := by
  induction log generalizing s with
  | nil => trivial
  | cons head rest ih =>
    refine ⟨h s head List.mem_cons_self, ?_⟩
    exact ih (fun s e he => h s e (List.mem_cons_of_mem head he)) _

end Observer

namespace Prog

variable {Op : Type} {Ret : Op → Type} {S ε ε' α β : Type}
variable (L : Observer Op Ret S)

/-- From the state on, the program does what the observer admits and ends in `Q` or `E`. -/
def Meets (Q : α → S → Prop) (E : ε → S → Prop) : Prog Op Ret ε α → S → Prop
  | .ret a, s => Q a s
  | .raise e, s => E e s
  | .call o k, s => L.admits s o ∧ ∀ r, L.expects s o r → (k r).Meets Q E (L.next s o r)

variable {L}

theorem Meets.mono {Q Q' : α → S → Prop} {E E' : ε → S → Prop} {p : Prog Op Ret ε α} {s : S}
    (h : p.Meets L Q E s) (hQ : ∀ a s, Q a s → Q' a s) (hE : ∀ e s, E e s → E' e s) :
    p.Meets L Q' E' s := by
  induction p generalizing s with
  | ret a => exact hQ a s h
  | raise e => exact hE e s h
  | call o k ih => exact ⟨h.1, fun r hr => ih r (h.2 r hr)⟩

theorem Meets.weaken {Q Q' : α → S → Prop} {E : ε → S → Prop} {p : Prog Op Ret ε α} {s : S}
    (h : p.Meets L Q E s) (hQ : ∀ a s, Q a s → Q' a s) : p.Meets L Q' E s :=
  h.mono hQ fun _ _ he => he

theorem Meets.and {Q Q' : α → S → Prop} {E E' : ε → S → Prop} {p : Prog Op Ret ε α} {s : S}
    (h : p.Meets L Q E s) (h' : p.Meets L Q' E' s) :
    p.Meets L (fun a s => Q a s ∧ Q' a s) (fun e s => E e s ∧ E' e s) s := by
  induction p generalizing s with
  | ret a => exact ⟨h, h'⟩
  | raise e => exact ⟨h, h'⟩
  | call o k ih => exact ⟨h.1, fun r hr => ih r (h.2 r hr) (h'.2 r hr)⟩

theorem Meets.bind {Q' : α → S → Prop} {Q : β → S → Prop} {E : ε → S → Prop}
    {p : Prog Op Ret ε α} {f : α → Prog Op Ret ε β} {s : S} (hp : p.Meets L Q' E s)
    (hf : ∀ a s, Q' a s → (f a).Meets L Q E s) : (p.bind f).Meets L Q E s := by
  induction p generalizing s with
  | ret a => exact hf a s hp
  | raise e => exact hp
  | call o k ih => exact ⟨hp.1, fun r hr => ih r (hp.2 r hr)⟩

theorem Meets.ofExcept {x : Except ε α} {Q : α → S → Prop} {E : ε → S → Prop} {s : S}
    (hok : ∀ a, x = .ok a → Q a s) (herror : ∀ e, x = .error e → E e s) :
    (Prog.ofExcept x : Prog Op Ret ε α).Meets L Q E s := by
  cases x with
  | ok a => exact hok a rfl
  | error e => exact herror e rfl

def Outcome (Q : α → S → Prop) (E : ε → S → Prop) : Except ε α → S → Prop
  | .ok a, s => Q a s
  | .error e, s => E e s

theorem Meets.attempt {Q : α → S → Prop} {E : ε → S → Prop} {E' : ε' → S → Prop}
    {p : Prog Op Ret ε α} {s : S} (h : p.Meets L Q E s) :
    (p.attempt : Prog Op Ret ε' (Except ε α)).Meets L (Outcome Q E) E' s := by
  induction p generalizing s with
  | ret a => exact h
  | raise e => exact h
  | call o k ih => exact ⟨h.1, fun r hr => ih r (h.2 r hr)⟩

/-- One operation, and what is known after it. -/
def Allowed (L : Observer Op Ret S) (s : S) (o : Op) (P : Ret o → S → Prop) : Prop :=
  L.admits s o ∧ ∀ r, L.expects s o r → P r (L.next s o r)

theorem Allowed.call {s : S} {o : Op} {P : Ret o → S → Prop} {k : Ret o → Prog Op Ret ε α}
    {Q : α → S → Prop} {E : ε → S → Prop} (h : Allowed L s o P)
    (hk : ∀ r s, P r s → (k r).Meets L Q E s) : (Prog.call o k).Meets L Q E s :=
  ⟨h.1, fun r hr => hk r _ (h.2 r hr)⟩

theorem Allowed.expecting {s : S} {o : Op} {P : Ret o → S → Prop} (h : Allowed L s o P) :
    Allowed L s o fun r s' => P r s' ∧ L.expects s o r :=
  ⟨h.1, fun r hr => ⟨h.2 r hr, hr⟩⟩

theorem Allowed.mono {s : S} {o : Op} {P P' : Ret o → S → Prop} (h : Allowed L s o P)
    (hP : ∀ r s, P r s → P' r s) : Allowed L s o P' :=
  ⟨h.1, fun r hr => hP r _ (h.2 r hr)⟩

theorem Allowed.ofExec {exec : (o : Op) → S → Ret o × S} {s : S} {o : Op} {P : Ret o → S → Prop}
    (h : P (exec o s).1 (exec o s).2) : Allowed (Observer.ofExec exec) s o P := by
  refine ⟨trivial, fun r hr => ?_⟩
  have hreply : r = (exec o s).1 := hr
  rw [hreply]
  exact h

/-- A program that runs alone ends as its observer says. -/
theorem Meets.eval {exec : (o : Op) → S → Ret o × S} {Q : α → S → Prop} {E : ε → S → Prop}
    {p : Prog Op Ret ε α} {s : S} (h : p.Meets (Observer.ofExec exec) Q E s) :
    Outcome Q E (p.eval exec s).1 (p.eval exec s).2 := by
  induction p generalizing s with
  | ret a => exact h
  | raise e => exact h
  | call o k ih => exact ih _ (h.2 _ rfl)

/-- What a program has done so far is admitted, and the rest of it is still right. -/
theorem Meets.follows {ι : Type} {Q : α → S → Prop} {E : ε → S → Prop} {p q : Prog Op Ret ε α}
    {s : S} {entries : List (Entry ι Op Ret)} (h : p.Meets L Q E s) (hpq : Follows p entries q)
    (hexpected : L.Expected s entries) :
    L.Admitted s entries ∧ q.Meets L Q E (L.after s entries) := by
  induction hpq generalizing s with
  | nil p => exact ⟨trivial, h⟩
  | cons hrest ih =>
    have htail := ih (h.2 _ hexpected.1) hexpected.2
    exact ⟨⟨h.1, htail.1⟩, htail.2⟩

/-- A program that is alone in its pool does what its observer admits. -/
theorem Meets.admitted {σ : Type} {Q : α → S → Prop} {E : ε → S → Prop}
    {c : Pool Unit Op Ret ε α σ} {s : S} (h : (c.tasks ()).Meets L Q E s) (hnew : c.log = [])
    (exec : (o : Op) → σ → Ret o × σ) (schedule : List Unit)
    (hexpected : L.Expected s (c.run exec schedule).log) :
    L.Admitted s (c.run exec schedule).log := by
  have hlog : (c.run exec schedule).log = ofTask () (Pool.trace exec c schedule) := by
    rw [Pool.run_log, hnew, List.nil_append, ofTask, List.filter_eq_self.mpr]
    intro e _
    exact decide_eq_true rfl
  rw [hlog] at hexpected ⊢
  exact (h.follows (Pool.run_follows exec c () schedule) hexpected).1

section Recording

variable {σ : Type} {exec : (o : Op) → σ → Ret o × σ} {I : σ × List (Entry Unit Op Ret) → Prop}

theorem Allowed.recording {s : σ × List (Entry Unit Op Ret)} {o : Op}
    {P : Ret o → σ × List (Entry Unit Op Ret) → Prop} (hI : I s)
    (h : P (exec o s.1).1 ((exec o s.1).2, s.2 ++ [⟨(), o, (exec o s.1).1⟩])) :
    Allowed (Observer.recording exec I) s o P := by
  refine ⟨hI, fun r hr => ?_⟩
  have hreply : r = (exec o s.1).1 := hr
  rw [hreply]
  exact h

/-- What each of its operations keeps, a recorded program keeps. -/
theorem Only.recording {A : Op → Prop} {p : Prog Op Ret ε α} {s : σ × List (Entry Unit Op Ret)}
    (hp : p.Only A)
    (hstep : ∀ o s, A o → I s → I ((exec o s.1).2, s.2 ++ [⟨(), o, (exec o s.1).1⟩])) (hI : I s) :
    p.Meets (Observer.recording exec I) (fun _ s => I s) (fun _ s => I s) s := by
  induction p generalizing s with
  | ret a => exact hI
  | raise e => exact hI
  | call o k ih => exact ⟨hI, fun r _ => ih r (hp.2 r) (hstep o s hp.1 hI)⟩

theorem Meets.recorded {Q : α → σ × List (Entry Unit Op Ret) → Prop}
    {E : ε → σ × List (Entry Unit Op Ret) → Prop} {p : Prog Op Ret ε α} {s : σ}
    {log : List (Entry Unit Op Ret)} (h : p.Meets (Observer.recording exec I) Q E (s, log)) :
    Outcome Q E (p.eval exec s).1 ((p.eval exec s).2, log ++ p.history exec s) := by
  induction p generalizing s log with
  | ret a =>
    rw [history, List.append_nil]
    exact h
  | raise e =>
    rw [history, List.append_nil]
    exact h
  | call o k ih =>
    have hrest := ih _ (h.2 _ rfl)
    rw [List.append_assoc] at hrest
    exact hrest

/-- A task that keeps an outline which relies on nothing, alone. -/
theorem Meets.of_safe {G : Type} {O : Outline Unit Op Ret σ G} {Q : α → G → Prop} {E : ε → G → Prop}
    {p : Prog Op Ret ε α} {g : G} (h : O.Safe exec () Q E p g)
    (hrely : ∀ s log ghost o, O.Rely s log ghost () o) {s : σ × List (Entry Unit Op Ret)}
    (hinv : O.Inv s.1 s.2 fun _ => g) :
    p.Meets (Observer.recording exec fun _ => True)
      (fun a s' => ∃ g', O.Inv s'.1 s'.2 (fun _ => g') ∧ Q a g')
      (fun e s' => ∃ g', O.Inv s'.1 s'.2 (fun _ => g') ∧ E e g') s := by
  induction p generalizing g s with
  | ret a => exact ⟨g, hinv, h⟩
  | raise e => exact ⟨g, hinv, h⟩
  | call o k ih =>
    obtain ⟨g', -, hnext, hrest⟩ := h s.1 s.2 (fun _ => g) rfl hinv (hrely _ _ _ _)
    refine ⟨trivial, fun r hr => ?_⟩
    have hreply : r = (exec o s.1).1 := hr
    rw [hreply]
    refine ih _ hrest ?_
    have hghost : Function.update (fun _ : Unit => g) () g' = fun _ => g' := by
      funext i
      rfl
    rw [hghost] at hnext
    exact hnext

section Guarded

variable {A : σ → Op → Prop}

theorem Meets.guarded_call {s : σ × List (Entry Unit Op Ret)} {o : Op}
    {k : Ret o → Prog Op Ret ε α} {Q : α → σ × List (Entry Unit Op Ret) → Prop}
    {E : ε → σ × List (Entry Unit Op Ret) → Prop} (hA : A s.1 o)
    (h : (k (exec o s.1).1).Meets (Observer.guarded exec A) Q E
      ((exec o s.1).2, s.2 ++ [⟨(), o, (exec o s.1).1⟩])) :
    (Prog.call o k).Meets (Observer.guarded exec A) Q E s := by
  refine ⟨hA, fun r hr => ?_⟩
  have hreply : r = (exec o s.1).1 := hr
  rw [hreply]
  exact h

/-- A guarded program that runs to its end. -/
theorem Meets.guarded {Q : α → σ × List (Entry Unit Op Ret) → Prop}
    {E : ε → σ × List (Entry Unit Op Ret) → Prop} {p : Prog Op Ret ε α} {s : σ}
    {log : List (Entry Unit Op Ret)} (h : p.Meets (Observer.guarded exec A) Q E (s, log)) :
    p.Along exec A s ∧
      Outcome Q E (p.eval exec s).1 ((p.eval exec s).2, log ++ p.history exec s) := by
  induction p generalizing s log with
  | ret a =>
    rw [history, List.append_nil]
    exact ⟨trivial, h⟩
  | raise e =>
    rw [history, List.append_nil]
    exact ⟨trivial, h⟩
  | call o k ih =>
    have hrest := ih _ (h.2 _ rfl)
    rw [List.append_assoc] at hrest
    exact ⟨⟨h.1, hrest.1⟩, hrest.2⟩

end Guarded

section Barring

variable {B : Op → Prop}

theorem Meets.barring_call {s : σ × List (Entry Unit Op Ret)} {o : Op}
    {k : Ret o → Prog Op Ret ε α} {Q : α → σ × List (Entry Unit Op Ret) → Prop}
    {E : ε → σ × List (Entry Unit Op Ret) → Prop}
    (h : ¬ B o → (k (exec o s.1).1).Meets (Observer.barring exec B) Q E
      ((exec o s.1).2, s.2 ++ [⟨(), o, (exec o s.1).1⟩])) :
    (Prog.call o k).Meets (Observer.barring exec B) Q E s := by
  refine ⟨trivial, fun r hr => ?_⟩
  obtain ⟨hB, hreply⟩ : ¬ B o ∧ r = (exec o s.1).1 := hr
  rw [hreply]
  exact h hB

/-- A program that runs to its end and does no `B`. -/
theorem Meets.barring {Q : α → σ × List (Entry Unit Op Ret) → Prop}
    {E : ε → σ × List (Entry Unit Op Ret) → Prop} {p : Prog Op Ret ε α} {s : σ}
    {log : List (Entry Unit Op Ret)} (h : p.Meets (Observer.barring exec B) Q E (s, log))
    (hB : ∀ e ∈ p.history exec s, ¬ B e.op) :
    Outcome Q E (p.eval exec s).1 ((p.eval exec s).2, log ++ p.history exec s) := by
  induction p generalizing s log with
  | ret a =>
    rw [history, List.append_nil]
    exact h
  | raise e =>
    rw [history, List.append_nil]
    exact h
  | call o k ih =>
    have hop : ¬ B o := hB ⟨(), o, (exec o s).1⟩ List.mem_cons_self
    have hrest := ih _ (h.2 _ ⟨hop, rfl⟩) fun e he => hB e (List.mem_cons_of_mem _ he)
    rw [List.append_assoc] at hrest
    exact hrest

end Barring

section Assuming

variable {σ : Type} {exec : (o : Op) → σ → Ret o × σ} {A B : σ → Op → Prop}

theorem Allowed.assuming {s : σ} {o : Op} {P : Ret o → σ → Prop} (hB : B s o)
    (h : A s o → P (exec o s).1 (exec o s).2) : Allowed (Observer.assuming exec A B) s o P := by
  refine ⟨hB, fun r hr => ?_⟩
  obtain ⟨hA, hreply⟩ : A s o ∧ r = (exec o s).1 := hr
  rw [hreply]
  exact h hA

theorem Meets.along {Q : α → σ → Prop} {E : ε → σ → Prop} {p : Prog Op Ret ε α} {s : σ}
    (h : p.Meets (Observer.assuming exec A B) Q E s) (hA : p.Along exec A s) :
    p.Along exec B s := by
  induction p generalizing s with
  | ret a => trivial
  | raise e => trivial
  | call o k ih => exact ⟨h.1, ih _ (h.2 _ ⟨hA.1, rfl⟩) hA.2⟩

theorem Meets.assumed {Q : α → σ → Prop} {E : ε → σ → Prop} {p : Prog Op Ret ε α} {s : σ}
    (h : p.Meets (Observer.assuming exec A B) Q E s) (hA : p.Along exec A s) :
    Outcome Q E (p.eval exec s).1 (p.eval exec s).2 := by
  induction p generalizing s with
  | ret a => exact h
  | raise e => exact h
  | call o k ih => exact ih _ (h.2 _ ⟨hA.1, rfl⟩) hA.2

end Assuming

/-- A recorded program keeps `I` in every state of a run. -/
theorem Meets.reached {c : Pool Unit Op Ret ε α σ}
    (h : (c.tasks ()).Meets (Observer.recording exec I) (fun _ s => I s) (fun _ s => I s)
      (c.shared, c.log)) (schedule : List Unit) :
    I ((c.run exec schedule).shared, (c.run exec schedule).log) := by
  induction schedule generalizing c with
  | nil =>
    show I (c.shared, c.log)
    cases htask : c.tasks () with
    | ret a =>
      rw [htask] at h
      exact h
    | raise e =>
      rw [htask] at h
      exact h
    | call o k =>
      rw [htask] at h
      exact h.1
  | cons i rest ih =>
    rw [Pool.run_cons]
    apply ih
    cases htask : c.tasks i with
    | ret a =>
      rw [Pool.step_done exec (by rw [htask]; rfl)]
      exact h
    | raise e =>
      rw [Pool.step_done exec (by rw [htask]; rfl)]
      exact h
    | call o k =>
      rw [Pool.step_call exec htask]
      rw [htask] at h
      have hnext := h.2 _ rfl
      simp only [Function.update_self]
      exact hnext

end Recording

end Prog

end Async
end BaseAgent
