import BaseAgent.Models.Python
import Mathlib.Data.List.Nodup

/-!
# The resource manager

`ResourceManager` acquires the resources of an execution when they are asked for and releases them,
in reverse order, when it is closed.  It emits an event for what it does, and the store of the
events may raise as well as the resources.

What a call does to the world is written down in a log, in order.  The answers of the world depend
on their place in it, so every pattern of exceptions is one environment.
-/

namespace BaseAgent
namespace Resources

inductive Raised where
  | exception (message : String)
  /-- A `BaseException` that is no `Exception`, such as the cancellation of the task. -/
  | base (message : String)
  | scopeClosed (message : String)
  | taskMismatch (message : String)
  | notFound (message : String)
  | acquisition (message : String)
  | type (message : String)
  | key (name : String)
  deriving DecidableEq, Repr

namespace Raised

/-- `except Exception` catches it. -/
def isException : Raised → Bool
  | base _ => false
  | _ => true

/-- `str(exc)`. -/
def text : Raised → String
  | exception m | base m | scopeClosed m | taskMismatch m | notFound m | acquisition m | type m => m
  | key name => s!"'{name}'"

end Raised

/-- `_RESOURCE_NAME`. -/
def validResourceName (name : String) : Bool :=
  match name.toList with
  | [] => false
  | c :: rest => c.isAlphanum && rest.all fun c => c.isAlphanum || c == '_' || c == '.' || c == '-'

structure ResourceSpec where
  name : String
  eager : Bool := false
  valid : validResourceName name = true
  deriving DecidableEq, Repr

inductive ResourcePhase where
  | acquire | release
  deriving DecidableEq, Repr

structure ResourceFailure where
  name : String
  phase : ResourcePhase
  message : String
  deriving DecidableEq, Repr

inductive ResourceEvent where
  | acquired (name : String)
  | released (name : String)
  | failed (failure : ResourceFailure)
  deriving DecidableEq, Repr

inductive ScopeState where
  | created | active | closed
  deriving DecidableEq, Repr

/-- A call of the world.  A context manager is named by the place of its factory's call. -/
inductive Call where
  | factory (name : String)
  | enter (manager : Nat) (succeeded : Bool)
  | exit (manager : Nat)
  | emit (event : ResourceEvent)
  deriving DecidableEq, Repr

/-- What the calls of the world end in, by their place in the log. -/
structure ResourceEnv where
  factory : Nat → Except Raised Unit := fun _ => .ok ()
  enter : Nat → Except Raised Unit := fun _ => .ok ()
  exit : Nat → Except Raised Unit := fun _ => .ok ()
  emit : Nat → Except Raised Unit := fun _ => .ok ()
  /-- Whether the value of a context manager has a type. -/
  isinstance : Nat → String → Bool := fun _ _ => true
  /-- The name of the type of its value. -/
  typeName : Nat → String := fun _ => "object"

structure ResourceManager where
  specs : List ResourceSpec
  unique : (specs.map (·.name)).Nodup

/-- The fields of the manager that change, and the log. -/
structure Scope where
  acquired : List (String × Nat) := []
  order : List String := []
  failures : List ResourceFailure := []
  state : ScopeState := .created
  ownerTask : Option Nat := none
  log : List Call := []
  deriving DecidableEq, Repr

abbrev Outcome (α : Type) := Except Raised α × Scope

namespace Scope

def record (s : Scope) (call : Call) : Scope := { s with log := s.log ++ [call] }

def fail (s : Scope) (failure : ResourceFailure) : Scope :=
  { s with failures := s.failures ++ [failure] }

def emit (env : ResourceEnv) (event : ResourceEvent) (s : Scope) : Outcome Unit :=
  (env.emit s.log.length, s.record (.emit event))

end Scope

section Manager

variable (env : ResourceEnv)

def acquire (name : String) (s : Scope) : Outcome Nat :=
  let manager := s.log.length
  match env.factory s.log.length with
  | .error e => (.error e, s.record (.factory name))
  | .ok _ =>
    let s := s.record (.factory name)
    match env.enter s.log.length with
    | .error e =>
      let s := s.record (.enter manager false)
      if e.isException then
        match (s.fail ⟨name, .acquire, e.text⟩).emit env (.failed ⟨name, .acquire, e.text⟩) with
        | (.error e', s) => (.error e', s)
        | (.ok _, s) =>
          (.error (.acquisition s!"failed to acquire resource '{name}': {e.text}"), s)
      else (.error e, s)
    | .ok _ =>
      let s := s.record (.enter manager true)
      let s := { s with acquired := dictSet s.acquired name manager, order := s.order ++ [name] }
      match s.emit env (.acquired name) with
      | (.error e, s) => (.error e, s)
      | (.ok _, s) => (.ok manager, s)

/-- The check of `get` on the value it returns. -/
def checkType (name : String) (expectedType : Option String) (manager : Nat) : Except Raised Nat :=
  match expectedType with
  | none => .ok manager
  | some expected =>
    if env.isinstance manager expected then .ok manager
    else .error (.type
      s!"resource '{name}' expected {expected}, got {env.typeName manager}")

variable (manager : ResourceManager)

/-- `get`, called by a task. -/
def get (task : Nat) (name : String) (expectedType : Option String) (s : Scope) : Outcome Nat :=
  if s.state ≠ .active then
    (.error (.scopeClosed "resources are only available during execution"), s)
  else if s.ownerTask ≠ some task then
    (.error (.taskMismatch
      "resources must be acquired and released in their owning asyncio task"), s)
  else
    match dictGet s.acquired name with
    | some acquired => (checkType env name expectedType acquired, s)
    | none =>
      if manager.specs.any (·.name == name) then
        match acquire env name s with
        | (.error e, s) => (.error e, s)
        | (.ok acquired, s) => (checkType env name expectedType acquired, s)
      else (.error (.notFound s!"unknown resource '{name}'"), s)

/-- The loop of `start`. -/
def getEager (task : Nat) : List ResourceSpec → Scope → Outcome Unit
  | [], s => (.ok (), s)
  | spec :: rest, s =>
    if spec.eager then
      match get env manager task spec.name none s with
      | (.error e, s) => (.error e, s)
      | (.ok _, s) => getEager task rest s
    else getEager task rest s

def start (task : Nat) (s : Scope) : Outcome Unit :=
  if s.state ≠ .created then
    (.error (.scopeClosed "resource scope can only be started once"), s)
  else getEager env manager task manager.specs { s with ownerTask := some task, state := .active }

/-- The loop of `close`. -/
def release : List String → Scope → Outcome Unit
  | [], s => (.ok (), s)
  | name :: rest, s =>
    match dictGet s.acquired name with
    | none => (.error (.key name), s)
    | some manager =>
      match env.exit s.log.length with
      | .error e =>
        let s := s.record (.exit manager)
        if e.isException then
          match (s.fail ⟨name, .release, e.text⟩).emit env (.failed ⟨name, .release, e.text⟩) with
          | (.error e', s) => (.error e', s)
          | (.ok _, s) => release rest s
        else (.error e, s)
      | .ok _ =>
        match (s.record (.exit manager)).emit env (.released name) with
        | (.error e, s) => (.error e, s)
        | (.ok _, s) => release rest s

def close (s : Scope) : Outcome (List ResourceFailure) :=
  if s.state = .closed then (.ok s.failures, s)
  else
    match release env s.order.reverse { s with state := .closed } with
    | (.error e, s) => (.error e, s)
    | (.ok _, s) => (.ok s.failures, { s with acquired := [], order := [] })

/-- A call of the manager, whose caller goes on whatever it ends in. -/
inductive Request where
  | start (task : Nat)
  | get (task : Nat) (name : String) (expectedType : Option String)
  | close
  deriving DecidableEq, Repr

def perform (request : Request) (s : Scope) : Scope :=
  match request with
  | .start task => (start env manager task s).2
  | .get task name expectedType => (get env manager task name expectedType s).2
  | .close => (close env s).2

def run (requests : List Request) (s : Scope) : Scope :=
  requests.foldl (fun s request => perform env manager request s) s

end Manager

end Resources
end BaseAgent
