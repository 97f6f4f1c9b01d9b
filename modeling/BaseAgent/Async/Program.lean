import Mathlib.Logic.Function.Basic

/-!
# Asynchronous programs

A task of a cooperative runtime runs without interruption between two of its
awaits.  `Prog` is the tree of what such a task can do: it returns, it raises, or
it awaits one atomic operation and continues with the reply.  Every async
function of the source is a value of this type, and the operations it awaits are
the only points at which another task can run.

Nothing here names the operations.  `Op` is the type of requests and `Ret o` the
type of replies to the request `o`.
-/

namespace BaseAgent
namespace Async

/-- A program over the operations `Op`, raising values of `ε` and returning
values of `α`. -/
inductive Prog (Op : Type) (Ret : Op → Type) (ε α : Type) where
  | ret (value : α)
  | raise (error : ε)
  | call (op : Op) (next : Ret op → Prog Op Ret ε α)

namespace Prog

variable {Op : Type} {Ret : Op → Type} {ε ε' α β : Type}

def bind : Prog Op Ret ε α → (α → Prog Op Ret ε β) → Prog Op Ret ε β
  | .ret a, f => f a
  | .raise e, _ => .raise e
  | .call o k, f => .call o fun r => (k r).bind f

/-- Run the program and hand its outcome over as a value, so that a caller can
match on the exception it would have caught. -/
def attempt : Prog Op Ret ε α → Prog Op Ret ε' (Except ε α)
  | .ret a => .ret (.ok a)
  | .raise e => .ret (.error e)
  | .call o k => .call o fun r => (k r).attempt

instance : Monad (Prog Op Ret ε) where
  pure := .ret
  bind := bind

def ofExcept : Except ε α → Prog Op Ret ε α
  | .ok a => .ret a
  | .error e => .raise e

@[simp] theorem pure_eq (a : α) : (pure a : Prog Op Ret ε α) = .ret a := rfl

@[simp] theorem bind_eq (p : Prog Op Ret ε α) (f : α → Prog Op Ret ε β) :
    p >>= f = p.bind f := rfl

@[simp] theorem ret_bind (a : α) (f : α → Prog Op Ret ε β) :
    (Prog.ret a : Prog Op Ret ε α).bind f = f a := rfl

@[simp] theorem raise_bind (e : ε) (f : α → Prog Op Ret ε β) :
    (Prog.raise e : Prog Op Ret ε α).bind f = .raise e := rfl

@[simp] theorem call_bind (o : Op) (k : Ret o → Prog Op Ret ε α) (f : α → Prog Op Ret ε β) :
    (Prog.call o k).bind f = .call o fun r => (k r).bind f := rfl

@[simp] theorem ofExcept_ok (a : α) :
    (ofExcept (.ok a) : Prog Op Ret ε α) = .ret a := rfl

@[simp] theorem ofExcept_error (e : ε) :
    (ofExcept (.error e) : Prog Op Ret ε α) = .raise e := rfl

theorem bind_ret (p : Prog Op Ret ε α) : p.bind .ret = p := by
  induction p with
  | ret a => rfl
  | raise e => rfl
  | call o k ih => exact congrArg (Prog.call o) (funext ih)

theorem bind_assoc {γ : Type} (p : Prog Op Ret ε α) (f : α → Prog Op Ret ε β)
    (g : β → Prog Op Ret ε γ) :
    (p.bind f).bind g = p.bind fun a => (f a).bind g := by
  induction p with
  | ret a => rfl
  | raise e => rfl
  | call o k ih =>
    simp only [call_bind]
    congr 1
    funext r
    exact ih r

/-- Run the program alone, every operation as `exec` performs it. -/
def eval {σ : Type} (exec : (o : Op) → σ → Ret o × σ) : Prog Op Ret ε α → σ → Except ε α × σ
  | .ret a, s => (.ok a, s)
  | .raise e, s => (.error e, s)
  | .call o k, s => (k (exec o s).1).eval exec (exec o s).2

section Eval

variable {σ : Type} {exec : (o : Op) → σ → Ret o × σ}

theorem eval_call {o : Op} {k : Ret o → Prog Op Ret ε α} {s s' : σ} {r : Ret o}
    (h : exec o s = (r, s')) : (Prog.call o k).eval exec s = (k r).eval exec s' := by
  rw [eval, h]

theorem eval_bind_ok {p : Prog Op Ret ε α} {f : α → Prog Op Ret ε β} {s s' : σ} {a : α}
    (h : p.eval exec s = (.ok a, s')) : (p.bind f).eval exec s = (f a).eval exec s' := by
  induction p generalizing s with
  | ret b =>
    cases h
    rfl
  | raise e => cases h
  | call o k ih => exact ih _ h

theorem eval_bind_error {p : Prog Op Ret ε α} {f : α → Prog Op Ret ε β} {s s' : σ} {e : ε}
    (h : p.eval exec s = (.error e, s')) : (p.bind f).eval exec s = (.error e, s') := by
  induction p generalizing s with
  | ret b => cases h
  | raise e =>
    cases h
    rfl
  | call o k ih => exact ih _ h

theorem eval_attempt (p : Prog Op Ret ε α) (s : σ) :
    (p.attempt : Prog Op Ret ε' (Except ε α)).eval exec s =
      (.ok (p.eval exec s).1, (p.eval exec s).2) := by
  induction p generalizing s with
  | ret a => rfl
  | raise e => rfl
  | call o k ih => exact ih _ _

/-- Every operation that the program performs alone is `A` in the state it finds. -/
def Along (exec : (o : Op) → σ → Ret o × σ) (A : σ → Op → Prop) : Prog Op Ret ε α → σ → Prop
  | .ret _, _ => True
  | .raise _, _ => True
  | .call o k, s => A s o ∧ (k (exec o s).1).Along exec A (exec o s).2

instance decidableAlong {A : σ → Op → Prop} [∀ s o, Decidable (A s o)] :
    (p : Prog Op Ret ε α) → (s : σ) → Decidable (p.Along exec A s)
  | .ret _, _ | .raise _, _ => isTrue trivial
  | .call o k, s =>
    have : Decidable ((k (exec o s).1).Along exec A (exec o s).2) :=
      decidableAlong (k (exec o s).1) (exec o s).2
    inferInstanceAs (Decidable (A s o ∧ (k (exec o s).1).Along exec A (exec o s).2))

theorem along_call {A : σ → Op → Prop} {o : Op} {k : Ret o → Prog Op Ret ε α} {s s' : σ} {r : Ret o}
    (h : exec o s = (r, s')) :
    (Prog.call o k).Along exec A s ↔ A s o ∧ (k r).Along exec A s' := by
  rw [Along, h]

theorem along_bind {A : σ → Op → Prop} {p : Prog Op Ret ε α} {f : α → Prog Op Ret ε β} {s : σ} :
    (p.bind f).Along exec A s ↔
      p.Along exec A s ∧ ∀ a s', p.eval exec s = (.ok a, s') → (f a).Along exec A s' := by
  induction p generalizing s with
  | ret a =>
    constructor
    · intro h
      refine ⟨trivial, fun b s' hb => ?_⟩
      cases hb
      exact h
    · exact fun h => h.2 a s rfl
  | raise e =>
    constructor
    · exact fun _ => ⟨trivial, fun _ _ hb => nomatch hb⟩
    · exact fun _ => trivial
  | call o k ih =>
    show A s o ∧ ((k _).bind f).Along exec A _ ↔ (A s o ∧ (k _).Along exec A _) ∧ _
    rw [ih, and_assoc]
    rfl

theorem along_attempt {A : σ → Op → Prop} {p : Prog Op Ret ε α} {s : σ} :
    (p.attempt : Prog Op Ret ε' (Except ε α)).Along exec A s ↔ p.Along exec A s := by
  induction p generalizing s with
  | ret a => exact Iff.rfl
  | raise e => exact Iff.rfl
  | call o k ih =>
    show A s o ∧ (k _).attempt.Along exec A _ ↔ A s o ∧ (k _).Along exec A _
    rw [ih]

end Eval

theorem Along.mono {σ : Type} {exec : (o : Op) → σ → Ret o × σ} {A B : σ → Op → Prop}
    {p : Prog Op Ret ε α} {s : σ} (hp : p.Along exec A s) (h : ∀ s o, A s o → B s o) :
    p.Along exec B s := by
  induction p generalizing s with
  | ret a => trivial
  | raise e => trivial
  | call o k ih => exact ⟨h s o hp.1, ih _ hp.2⟩

def Only (A : Op → Prop) : Prog Op Ret ε α → Prop
  | .call o k => A o ∧ ∀ r, (k r).Only A
  | _ => True

theorem Only.bind {A : Op → Prop} {p : Prog Op Ret ε α} {f : α → Prog Op Ret ε β}
    (hp : p.Only A) (hf : ∀ a, (f a).Only A) : (p.bind f).Only A := by
  induction p with
  | ret a => exact hf a
  | raise e => trivial
  | call o k ih => exact ⟨hp.1, fun r => ih r (hp.2 r)⟩

theorem Only.attempt {A : Op → Prop} {p : Prog Op Ret ε α} (hp : p.Only A) :
    (p.attempt : Prog Op Ret ε' (Except ε α)).Only A := by
  induction p with
  | ret a => trivial
  | raise e => trivial
  | call o k ih => exact ⟨hp.1, fun r => ih r (hp.2 r)⟩

theorem Only.mono {A B : Op → Prop} {p : Prog Op Ret ε α} (hp : p.Only A) (h : ∀ o, A o → B o) :
    p.Only B := by
  induction p with
  | ret a => trivial
  | raise e => trivial
  | call o k ih => exact ⟨h o hp.1, fun r => ih r (hp.2 r)⟩

theorem Only.any (p : Prog Op Ret ε α) : p.Only fun _ => True := by
  induction p with
  | ret a => trivial
  | raise e => trivial
  | call o k ih => exact ⟨trivial, ih⟩

theorem Only.eval {σ : Type} {exec : (o : Op) → σ → Ret o × σ} {A : Op → Prop} {I : σ → Prop}
    {p : Prog Op Ret ε α} {s : σ} (hp : p.Only A)
    (hstep : ∀ o s, A o → I s → I (exec o s).2) (h : I s) : I (p.eval exec s).2 := by
  induction p generalizing s with
  | ret a => exact h
  | raise e => exact h
  | call o k ih => exact ih _ (hp.2 _) (hstep o s hp.1 h)

theorem Only.along {σ : Type} {exec : (o : Op) → σ → Ret o × σ} {A : Op → Prop}
    {p : Prog Op Ret ε α} (hp : p.Only A) (s : σ) : p.Along exec (fun _ o => A o) s := by
  induction p generalizing s with
  | ret a => trivial
  | raise e => trivial
  | call o k ih => exact ⟨hp.1, ih _ (hp.2 _) _⟩

def Throws (R : (o : Op) → Ret o → Prop) (P : ε → Prop) : Prog Op Ret ε α → Prop
  | .ret _ => True
  | .raise e => P e
  | .call o k => ∀ r, R o r → (k r).Throws R P

section Throws

variable {R : (o : Op) → Ret o → Prop} {P : ε → Prop}

theorem Throws.bind {p : Prog Op Ret ε α} {f : α → Prog Op Ret ε β} (hp : p.Throws R P)
    (hf : ∀ a, (f a).Throws R P) : (p.bind f).Throws R P := by
  induction p with
  | ret a => exact hf a
  | raise e => exact hp
  | call o k ih => exact fun r hr => ih r (hp r hr)

theorem attempt_throws (p : Prog Op Ret ε' α) :
    (p.attempt : Prog Op Ret ε (Except ε' α)).Throws R P := by
  induction p with
  | ret a => trivial
  | raise e => trivial
  | call o k ih => exact fun r _ => ih r

end Throws

/-- The program raises at a reply that is not `good`, and nowhere else.  The replies are possible
ones, and the value it returns is `Q`. -/
def Decides (possible good : (o : Op) → Ret o → Prop) (Q : α → Prop) : Prog Op Ret ε α → Prop
  | .ret a => Q a
  | .raise _ => False
  | .call o k => ∀ r, possible o r →
    (good o r → (k r).Decides possible good Q) ∧ (¬ good o r → ∃ e, k r = .raise e)

section Decides

variable {possible good : (o : Op) → Ret o → Prop} {Q : α → Prop}

theorem Decides.bind {Q' : β → Prop} {p : Prog Op Ret ε α} {f : α → Prog Op Ret ε β}
    (hp : p.Decides possible good Q) (hf : ∀ a, Q a → (f a).Decides possible good Q') :
    (p.bind f).Decides possible good Q' := by
  induction p with
  | ret a => exact hf a hp
  | raise e => exact hp.elim
  | call o k ih =>
    intro r hr
    refine ⟨fun hgood => ih r ((hp r hr).1 hgood), fun hbad => ?_⟩
    obtain ⟨e, hraise⟩ := (hp r hr).2 hbad
    exact ⟨e, congrArg (·.bind f) hraise⟩

/-- A program that runs alone returns exactly when the replies it gets are good. -/
theorem Decides.eval {σ : Type} {exec : (o : Op) → σ → Ret o × σ} {p : Prog Op Ret ε α} {s : σ}
    (hp : p.Decides possible good Q) (hpossible : ∀ o s, possible o (exec o s).1) :
    (∃ a, (p.eval exec s).1 = .ok a) ↔ p.Along exec (fun s o => good o (exec o s).1) s := by
  induction p generalizing s with
  | ret a => exact ⟨fun _ => trivial, fun _ => ⟨a, rfl⟩⟩
  | raise e => exact hp.elim
  | call o k ih =>
    have hcall := hp _ (hpossible o s)
    constructor
    · intro hok
      by_cases hgood : good o (exec o s).1
      · exact ⟨hgood, (ih _ (hcall.1 hgood)).mp hok⟩
      · obtain ⟨e, hraise⟩ := hcall.2 hgood
        obtain ⟨a, ha⟩ := hok
        have herror : ((Prog.call o k).eval exec s).1 = .error e := by
          rw [Prog.eval, hraise]
          rfl
        rw [herror] at ha
        cases ha
    · intro halong
      exact (ih _ (hcall.1 halong.1)).mpr halong.2

end Decides

def done : Prog Op Ret ε α → Bool
  | .call _ _ => false
  | _ => true

def raised : Prog Op Ret ε α → Option ε
  | .raise e => some e
  | _ => none

theorem raised_eq_some {p : Prog Op Ret ε α} {e : ε} : p.raised = some e ↔ p = .raise e := by
  cases p <;> simp [raised]

end Prog

end Async
end BaseAgent
